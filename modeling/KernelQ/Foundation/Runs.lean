import Mathlib.Data.List.Induction

/-!
# Machines and their runs

A machine is a partial step function over explicit actions; every source of
nondeterminism (who moves, which rows a query picks, what the clock says) is
part of the action. A run is a list of actions. The rules below are the only
inductions over runs the rest of the development needs: an invariant, an
invariant that may also speak of the actions so far, progress towards a goal,
and the crossing lemma (a predicate that is false at the start and true at the
end of a run was made true by one of its steps).
-/

namespace KernelQ.Foundation

/-- `step s a = none` means that action `a` is not enabled in `s`. -/
structure Machine (σ α : Type*) where
  step : σ → α → Option σ

namespace Machine

variable {σ α : Type*} (M : Machine σ α)

/-- Perform the actions in order; `none` as soon as one is not enabled. -/
def run : σ → List α → Option σ
  | s, [] => some s
  | s, a :: as => (M.step s a).bind fun t => run t as

@[simp] theorem run_nil (s : σ) : M.run s [] = some s := rfl

theorem run_cons_iff {s u : σ} {a : α} {as : List α} :
    M.run s (a :: as) = some u ↔ ∃ t, M.step s a = some t ∧ M.run t as = some u := by
  simp only [run, Option.bind_eq_some_iff]

theorem run_append_iff {s u : σ} {as bs : List α} :
    M.run s (as ++ bs) = some u ↔ ∃ t, M.run s as = some t ∧ M.run t bs = some u := by
  induction as generalizing s with
  | nil => simp
  | cons a as ih =>
      simp only [List.cons_append, run_cons_iff, ih]
      constructor
      · rintro ⟨v, hv, t, ht, hu⟩
        exact ⟨t, ⟨v, hv, ht⟩, hu⟩
      · rintro ⟨t, ⟨v, hv, ht⟩, hu⟩
        exact ⟨v, hv, t, ht, hu⟩

theorem run_snoc_iff {s u : σ} {as : List α} {a : α} :
    M.run s (as ++ [a]) = some u ↔ ∃ t, M.run s as = some t ∧ M.step t a = some u := by
  rw [run_append_iff]
  simp only [run_cons_iff, run_nil, Option.some.injEq, exists_eq_right]

variable {M}

/-- **Invariant rule**: what every step preserves holds at the end of every
run. -/
theorem run_invariant {P : σ → Prop} (hstep : ∀ s a t, P s → M.step s a = some t → P t)
    {s t : σ} {as : List α} (hs : P s) (h : M.run s as = some t) : P t := by
  induction as generalizing s with
  | nil => cases h; exact hs
  | cons a as ih =>
      obtain ⟨u, hu, h⟩ := M.run_cons_iff.mp h
      exact ih (hstep s a u hs hu) h

/-! ## Conditions on the steps of a run -/

variable (M) in
/-- Every action of the run meets `C` in the state it is performed in. -/
def EachStep (C : σ → α → Prop) : σ → List α → Prop
  | _, [] => True
  | s, a :: as => C s a ∧ ∀ t, M.step s a = some t → EachStep C t as

instance decidableEachStep (C : σ → α → Prop) [hC : ∀ s a, Decidable (C s a)] :
    ∀ (s : σ) (as : List α), Decidable (M.EachStep C s as)
  | _, [] => .isTrue trivial
  | s, a :: as =>
      match hC s a, h : M.step s a with
      | .isFalse hnot, _ => .isFalse fun hall => hnot hall.1
      | .isTrue hyes, none => .isTrue ⟨hyes, fun t ht => by rw [h] at ht; cases ht⟩
      | .isTrue hyes, some t =>
          match decidableEachStep C t as with
          | .isTrue hrest => .isTrue ⟨hyes, fun u hu => by rw [h] at hu; cases hu; exact hrest⟩
          | .isFalse hnot => .isFalse fun hall => hnot (hall.2 t h)

theorem EachStep.mono {C D : σ → α → Prop} (hCD : ∀ s a, C s a → D s a) :
    ∀ {as : List α} {s : σ}, M.EachStep C s as → M.EachStep D s as
  | [], _, _ => trivial
  | _ :: _, _, h => ⟨hCD _ _ h.1, fun t ht => (h.2 t ht).mono hCD⟩

theorem eachStep_append_iff {C : σ → α → Prop} {bs : List α} :
    ∀ {as : List α} {s : σ}, M.EachStep C s (as ++ bs) ↔
      M.EachStep C s as ∧ ∀ t, M.run s as = some t → M.EachStep C t bs
  | [], s => by simp [EachStep]
  | a :: as, s => by
      simp only [List.cons_append, EachStep, M.run_cons_iff]
      constructor
      · rintro ⟨hC, h⟩
        refine ⟨⟨hC, fun t ht => (eachStep_append_iff.mp (h t ht)).1⟩, ?_⟩
        rintro u ⟨t, ht, hu⟩
        exact (eachStep_append_iff.mp (h t ht)).2 u hu
      · rintro ⟨⟨hC, h⟩, hrest⟩
        exact ⟨hC, fun t ht =>
          eachStep_append_iff.mpr ⟨h t ht, fun u hu => hrest u ⟨t, ht, hu⟩⟩⟩

theorem EachStep.left {C : σ → α → Prop} {s : σ} {as bs : List α}
    (h : M.EachStep C s (as ++ bs)) : M.EachStep C s as :=
  (eachStep_append_iff.mp h).1

theorem EachStep.last {C : σ → α → Prop} {s t : σ} {as : List α} {a : α}
    (h : M.EachStep C s (as ++ [a])) (ht : M.run s as = some t) : C t a :=
  ((eachStep_append_iff.mp h).2 t ht).1

/-- The condition, read off at any position of the run. -/
theorem EachStep.at {C : σ → α → Prop} {s t : σ} {pre post : List α} {a : α}
    (h : M.EachStep C s (pre ++ a :: post)) (ht : M.run s pre = some t) : C t a :=
  ((eachStep_append_iff.mp h).2 t ht).1

/-- The run, as long as every action meets `C`: both can be told from one evaluation. -/
def checkedRun (M : Machine σ α) (C : σ → α → Prop) [∀ s a, Decidable (C s a)] :
    σ → List α → Option σ
  | s, [] => some s
  | s, a :: as => if C s a then (M.step s a).bind fun t => checkedRun M C t as else none

theorem run_of_checkedRun {C : σ → α → Prop} [∀ s a, Decidable (C s a)] {t : σ} :
    ∀ {as : List α} {s : σ}, M.checkedRun C s as = some t →
      M.run s as = some t ∧ M.EachStep C s as
  | [], _, h => ⟨h, trivial⟩
  | a :: as, s, h => by
      rw [checkedRun] at h
      split at h
      · obtain ⟨u, hu, h⟩ := Option.bind_eq_some_iff.mp h
        obtain ⟨hrun, heach⟩ := run_of_checkedRun h
        refine ⟨M.run_cons_iff.mpr ⟨u, hu, hrun⟩, ‹_›, ?_⟩
        intro u' hu'
        cases hu.symm.trans hu'
        exact heach
      · cases h

theorem eachStep_of_splits {C : σ → α → Prop} :
    ∀ {as : List α} {s : σ},
      (∀ pre a post t, as = pre ++ a :: post → M.run s pre = some t → C t a) →
      M.EachStep C s as
  | [], _, _ => trivial
  | a :: as, s, h => by
      refine ⟨h [] a as s rfl rfl, fun t ht => eachStep_of_splits ?_⟩
      intro pre b post u hsplit hu
      exact h (a :: pre) b post u (by rw [hsplit]; rfl) (M.run_cons_iff.mpr ⟨t, ht, hu⟩)

/-- Two conditions that agree under an invariant, which the steps keep that meet
them: they agree on runs. -/
theorem eachStep_congr {C D : σ → α → Prop} {P : σ → Prop} (hCD : ∀ s a, P s → (C s a ↔ D s a))
    (hstep : ∀ s a t, P s → D s a → M.step s a = some t → P t) :
    ∀ {as : List α} {s : σ}, P s → (M.EachStep C s as ↔ M.EachStep D s as)
  | [], _, _ => Iff.rfl
  | a :: as, s, hs => by
      have hrest : ∀ t, D s a → M.step s a = some t → (M.EachStep C t as ↔ M.EachStep D t as) :=
        fun t hD ht => eachStep_congr hCD hstep (hstep s a t hs hD ht)
      constructor
      · rintro ⟨hC, h⟩
        have hD := (hCD s a hs).mp hC
        exact ⟨hD, fun t ht => (hrest t hD ht).mp (h t ht)⟩
      · rintro ⟨hD, h⟩
        exact ⟨(hCD s a hs).mpr hD, fun t ht => (hrest t hD ht).mpr (h t ht)⟩

/-- **History rule**: an invariant that may speak of the actions performed so
far, under a condition met by every step. The induction is on the last
action. -/
theorem run_history {C : σ → α → Prop} {P : List α → σ → Prop} {s₀ : σ} (hinit : P [] s₀)
    (hstep : ∀ as s a t, M.run s₀ as = some s → P as s → C s a → M.step s a = some t →
      P (as ++ [a]) t)
    {as : List α} {t : σ} (hC : M.EachStep C s₀ as) (h : M.run s₀ as = some t) : P as t := by
  induction as using List.reverseRecOn generalizing t with
  | nil => cases h; exact hinit
  | append_singleton as a ih =>
      obtain ⟨s, hs, ha⟩ := M.run_snoc_iff.mp h
      exact hstep as s a t hs (ih hC.left hs) (hC.last hs) ha

/-- The invariant rule under a condition met by every step. -/
theorem run_invariant_of_eachStep {C : σ → α → Prop} {P : σ → Prop}
    (hstep : ∀ s a t, P s → C s a → M.step s a = some t → P t)
    {s t : σ} {as : List α} (hC : M.EachStep C s as) (hs : P s) (h : M.run s as = some t) :
    P t :=
  run_history (P := fun _ => P) hs (fun _ s a t _ => hstep s a t) hC h

/-- **Progress rule**: where a step that meets `C` always brings the measure down, short of the
goal, a run of such steps reaches the goal. The induction is on the measure. -/
theorem exists_run {C : σ → α → Prop} {P goal : σ → Prop} (μ : σ → ℕ)
    (hstep : ∀ s, P s → ¬ goal s → ∃ a t, C s a ∧ M.step s a = some t ∧ P t ∧ μ t < μ s)
    {s : σ} (hs : P s) :
    ∃ as t, M.EachStep C s as ∧ M.run s as = some t ∧ P t ∧ goal t := by
  induction hn : μ s using Nat.strongRecOn generalizing s with
  | ind n ih =>
      by_cases hgoal : goal s
      · exact ⟨[], s, trivial, rfl, hs, hgoal⟩
      · obtain ⟨a, t, hC, ht, hPt, hlt⟩ := hstep s hs hgoal
        obtain ⟨as, u, hCs, hu, hPu, hgoalu⟩ := ih (μ t) (hn ▸ hlt) hPt rfl
        refine ⟨a :: as, u, ⟨hC, ?_⟩, M.run_cons_iff.mpr ⟨t, ht, hu⟩, hPu, hgoalu⟩
        intro t' ht'
        cases ht.symm.trans ht'
        exact hCs

/-- **Crossing**: a predicate that fails at the start of a run and holds at
its end was made true by one of the run's steps. -/
theorem run_crosses {p : σ → Prop} : ∀ {as : List α} {s w : σ},
    M.run s as = some w → ¬ p s → p w →
    ∃ pre a post t u, as = pre ++ a :: post ∧ M.run s pre = some t ∧ M.step t a = some u ∧
      M.run u post = some w ∧ ¬ p t ∧ p u
  | [], s, w, h, hs, hw => by
      cases h
      exact absurd hw hs
  | a :: as, s, w, h, hs, hw => by
      obtain ⟨u, hu, h⟩ := M.run_cons_iff.mp h
      by_cases hpu : p u
      · exact ⟨[], a, as, s, u, rfl, rfl, hu, h, hs, hpu⟩
      · obtain ⟨pre, b, post, t, v, rfl, ht, hv, hpost, hpt, hpv⟩ := run_crosses h hpu hw
        exact ⟨a :: pre, b, post, t, v, rfl, M.run_cons_iff.mpr ⟨u, hu, ht⟩, hv, hpost, hpt, hpv⟩

end Machine

end KernelQ.Foundation
