import KernelQ.ControlPlane.System

/-!
# Requests that race

`cancel_job` and `retry_job` read the row, ask `can_transition`, and write
later without a guard. Between the two anyone may move the row. `RaceFree`
excludes the moves that matter; it is exactly what is needed for every request
that may write next to find a row that allows its target.
-/

namespace KernelQ.ControlPlane

open KernelQ.Foundation

/-- The checked transition at position `i` of the pending requests. -/
def Checked (s : System) (i : ℕ) (q : Api.Transition) (jobId : String) : Prop :=
  s.pending[i]? = some (.transition q jobId)

/-- A request that answers 200 finds, at its write, a row that allows its target. -/
def WriteAllowed (s : System) : Action → Prop
  | .write i now =>
      ∀ q jobId response, Checked s i q jobId →
        (Api.transitionWrite s.jobs now jobId q.target q.message).2 = .ok response →
        ∃ r, s.jobs.find? jobId = some r ∧ Api.Allows q.target r
  | _ => True

/-- No checked request but the one that writes loses the transition it was
promised. -/
def RaceFree (s : System) (a : Action) : Prop :=
  ∀ i q jobId r, Checked s i q jobId → (∀ now, a ≠ .write i now) →
    s.jobs.find? jobId = some r → Api.Allows q.target r →
    ∀ t, s.step a = some t → ∃ r', t.jobs.find? jobId = some r' ∧ Api.Allows q.target r'

/-! ## What becomes of a checked request -/

variable {s t : System} {a : Action}

/-- A checked request stays checked until it writes. -/
theorem checked_of_step (h : s.step a = some t) {i : ℕ} {q : Api.Transition} {jobId : String}
    (hi : Checked s i q jobId) (hne : ∀ now, a ≠ .write i now) : ∃ j, Checked t j q jobId := by
  have hlt : i < s.pending.length := (List.getElem?_eq_some_iff.mp hi).1
  unfold Checked at hi ⊢
  cases a with
  | request q' =>
      simp only [System.step] at h
      split at h
      · cases h
        exact ⟨i, by rw [List.getElem?_append_left hlt, hi]⟩
      · cases h
        exact ⟨i, hi⟩
  | write j now =>
      simp only [System.step, Option.map_eq_some_iff] at h
      obtain ⟨q', -, rfl⟩ := h
      -- whoever stands behind the written request moves up
      rcases lt_trichotomy i j with hij | rfl | hij
      · exact ⟨i, by rw [List.getElem?_eraseIdx, if_pos hij, hi]⟩
      · exact absurd rfl (hne now)
      · refine ⟨i - 1, ?_⟩
        rw [List.getElem?_eraseIdx, if_neg (by omega), Nat.sub_add_cancel (by omega), hi]
  | claim E now limit => cases h; exact ⟨i, hi⟩
  | result event now clock => cases h; exact ⟨i, hi⟩
  | scan E stamp now limit => cases h; exact ⟨i, hi⟩
  | requeueDeadLettered jobId' now => cases h; exact ⟨i, hi⟩

/-- Where a checked request comes from: it was checked before and did not
write, or this step checked it. -/
theorem checked_step_cases (h : s.step a = some t) {j : ℕ} {q : Api.Transition} {jobId : String}
    (hj : Checked t j q jobId) :
    (∃ i, Checked s i q jobId ∧ ∀ now, a ≠ .write i now) ∨
      (a = .request (.transition q jobId) ∧ t.jobs = s.jobs ∧
        ∃ r, s.jobs.find? jobId = some r ∧ Api.Allows q.target r) := by
  unfold Checked at hj
  cases a with
  | request q' =>
      simp only [System.step] at h
      split at h
      · rename_i hcheck
        cases h
        rw [List.getElem?_append] at hj
        split at hj
        · exact Or.inl ⟨j, hj, fun _ => by simp⟩
        · obtain rfl : q' = .transition q jobId := by
            rw [List.getElem?_singleton] at hj
            split at hj
            · exact Option.some.inj hj
            · cases hj
          exact Or.inr ⟨rfl, rfl, Api.transitionCheck_ok_iff.mp hcheck⟩
      · cases h
        exact Or.inl ⟨j, hj, fun _ => by simp⟩
  | write i now =>
      simp only [System.step, Option.map_eq_some_iff] at h
      obtain ⟨q', -, rfl⟩ := h
      rw [List.getElem?_eraseIdx] at hj
      split at hj
      · exact Or.inl ⟨j, hj, fun now' heq => by cases heq; omega⟩
      · exact Or.inl ⟨j + 1, hj, fun now' heq => by cases heq; omega⟩
  | claim E now limit => cases h; exact Or.inl ⟨j, hj, fun _ => by simp⟩
  | result event now clock => cases h; exact Or.inl ⟨j, hj, fun _ => by simp⟩
  | scan E stamp now limit => cases h; exact Or.inl ⟨j, hj, fun _ => by simp⟩
  | requeueDeadLettered jobId' now => cases h; exact Or.inl ⟨j, hj, fun _ => by simp⟩

/-! ## The law -/

/-- Every checked request still has the transition it was promised. -/
def PromisesKept (s : System) : Prop :=
  ∀ i q jobId, Checked s i q jobId → ∃ r, s.jobs.find? jobId = some r ∧ Api.Allows q.target r

theorem promisesKept_step (hs : PromisesKept s) (hfree : RaceFree s a) (h : s.step a = some t) :
    PromisesKept t := by
  intro j q jobId hj
  rcases checked_step_cases h hj with ⟨i, hi, hne⟩ | ⟨-, hjobs, hr⟩
  · obtain ⟨r, hr, hallows⟩ := hs i q jobId hi
    exact hfree i q jobId r hi hne hr hallows t h
  · rwa [hjobs]

theorem promisesKept_run {T : Jobs} {as : List Action}
    (hfree : System.machine.EachStep RaceFree (System.start T) as)
    (h : System.machine.run (System.start T) as = some s) : PromisesKept s := by
  refine Machine.run_invariant_of_eachStep (C := RaceFree) (P := PromisesKept)
    (fun _ _ _ hs hfree h => promisesKept_step hs hfree h) hfree ?_ h
  intro i q jobId hi
  simp [Checked, System.start] at hi

theorem writeAllowed_of_promisesKept (hs : PromisesKept s) (a : Action) : WriteAllowed s a := by
  cases a with
  | write i now => exact fun q jobId _ hi _ => hs i q jobId hi
  | request q => trivial
  | claim E now limit => trivial
  | result event now clock => trivial
  | scan E stamp now limit => trivial
  | requeueDeadLettered jobId now => trivial

/-- A race is a violation in waiting: the request that lost its transition may
write next. -/
theorem raceFree_of_writeAllowed (hw : ∀ t, s.step a = some t → ∀ b, WriteAllowed t b) :
    RaceFree s a := by
  intro i q jobId r hi hne hr hallows t h
  obtain ⟨j, hj⟩ := checked_of_step h hi hne
  obtain ⟨r', hr'⟩ := System.find?_of_step h hr
  obtain ⟨response, hok⟩ :=
    (Api.transitionWrite_ok_iff t.jobs 0 jobId q.target q.message).mpr ⟨r', hr'⟩
  exact hw t h (.write j 0) q jobId response hj hok

/-- **When requests respect the state machine**: after no part of a run can a
request write over a row that does not allow its target exactly when every step
of the run is race-free. -/
theorem writes_allowed_iff_raceFree (T : Jobs) (as : List Action) :
    (∀ pre post b, as = pre ++ post →
        System.machine.EachStep WriteAllowed (System.start T) (pre ++ [b])) ↔
      System.machine.EachStep RaceFree (System.start T) as := by
  constructor
  · intro h
    apply Machine.eachStep_of_splits
    intro pre a post s has hs
    apply raceFree_of_writeAllowed
    intro t ht b
    apply (h (pre ++ [a]) post b (by rw [has, List.append_assoc]; rfl)).last
    exact System.machine.run_snoc_iff.mpr ⟨s, hs, ht⟩
  · rintro h pre post b rfl
    apply Machine.eachStep_of_splits
    intro pre' a post' s hsplit hs
    refine writeAllowed_of_promisesKept (promisesKept_run ?_ hs) a
    -- whatever stands before an action of `pre ++ [b]` is a part of `pre`
    have hprefix : pre' <+: pre := by
      rcases List.eq_nil_or_concat' post' with rfl | ⟨post'', b', rfl⟩
      · exact ⟨[], by simpa using (List.append_inj_left' hsplit rfl).symm⟩
      · rw [← List.cons_append, ← List.append_assoc] at hsplit
        exact ⟨a :: post'', (List.append_inj_left' hsplit rfl).symm⟩
    obtain ⟨rest, rfl⟩ := hprefix
    exact h.left.left

/-- A cancel request reads a queued job; it is dispatched and succeeds before
the request writes. -/
def canceledTooLate : List Action :=
  Scenario.enqueue ++ [.request (.transition .cancel "job"), Scenario.claim,
    .result Scenario.succeeded 40 40] ++ [.write 0 50]

/-- The write of the cancel request hits `succeeded`. -/
theorem canceled_too_late_not_allowed :
    ¬ System.machine.EachStep WriteAllowed (System.start .empty) canceledTooLate := by
  intro h
  obtain ⟨s, r, hs, hr, hstate⟩ := System.run_row JobRow.state "succeeded" (.start .empty)
    (Scenario.enqueue ++ [.request (.transition .cancel "job"), Scenario.claim,
      .result Scenario.succeeded 40 40]) "job" (by decide +kernel)
  have hchecked : Checked s 0 .cancel "job" := by
    have hpending : ((System.machine.run (System.start .empty) (Scenario.enqueue ++
        [.request (.transition .cancel "job"), Scenario.claim,
          .result Scenario.succeeded 40 40])).map fun s => s.pending)
        = some [.transition .cancel "job"] := rfl
    rw [hs] at hpending
    simp [Checked, Option.some.inj hpending]
  obtain ⟨response, hok⟩ :=
    (Api.transitionWrite_ok_iff s.jobs 50 "job" .canceled "Job canceled").mpr ⟨r, hr⟩
  obtain ⟨r', hr', s', hs', hallows⟩ := h.last hs .cancel "job" response hchecked hok
  obtain rfl : r = r' := Option.some.inj (hr.symm.trans hr')
  rw [hstate] at hs'
  cases hs'
  exact absurd hallows (by decide)

end KernelQ.ControlPlane
