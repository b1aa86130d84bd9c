import KernelQ.ControlPlane.RepositorySteps
import Mathlib.Data.List.Induction

/-!
# The history of a row

Seven `UPDATE`s, each with its own `SET` list. None of them touches what a job was created
with, lets `retry_count` go back, or writes `dispatched_at` twice (`Sets.continues`); and
the two that dispatch a row see to its `dispatched_at` (`Sets.stamped`).
-/

namespace KernelQ.ControlPlane

open KernelQ.Foundation

namespace RepositoryStep

variable {T : Jobs} {jobId : String} {r r' : JobRow} {step : RepositoryStep} {u : JobUpdate}

/-- `NOW()` of the step's statement. -/
def now : RepositoryStep → ℤ
  | .call _ m => m.now
  | .result _ now _ => now

/-- The state that a caller passes in. -/
def stateArgument : RepositoryStep → Option String
  | .call (.createJob _ _ _ state _ _) _ => some state
  | .call (.updateJobState _ newState) _ => some newState
  | .call (.updateJobStateFromWorkerResult _ newState) _ => some newState
  | _ => none

/-! ## One step -/

/-- `r'` is the row `r` at a later time. -/
structure Continues (r r' : JobRow) : Prop where
  tenantId : r'.tenantId = r.tenantId
  priority : r'.priority = r.priority
  payload : r'.payload = r.payload
  createdAt : r'.createdAt = r.createdAt
  maxRetries : r'.maxRetries = r.maxRetries
  retryCount : r.retryCount ≤ r'.retryCount
  dispatchedAt : ∀ t, r.dispatchedAt = some t → r'.dispatchedAt = some t

theorem Continues.refl (r : JobRow) : Continues r r :=
  ⟨rfl, rfl, rfl, rfl, rfl, le_rfl, fun _ => id⟩

theorem Continues.trans {r'' : JobRow} (h : Continues r r') (h' : Continues r' r'') :
    Continues r r'' where
  tenantId := h'.tenantId.trans h.tenantId
  priority := h'.priority.trans h.priority
  payload := h'.payload.trans h.payload
  createdAt := h'.createdAt.trans h.createdAt
  maxRetries := h'.maxRetries.trans h.maxRetries
  retryCount := h.retryCount.trans h'.retryCount
  dispatchedAt t ht := h'.dispatchedAt t (h.dispatchedAt t ht)

/-- The `retry_count` is that of the row, or one more. -/
theorem setRetryPolicy_continues (retryAfter now : ℤ) (r : JobRow) :
    Continues r ((setRetryPolicy retryAfter now).set r) where
  tenantId := rfl
  priority := rfl
  payload := rfl
  createdAt := rfl
  maxRetries := rfl
  retryCount := by
    show r.retryCount ≤ if r.retryCount < r.maxRetries then r.retryCount + 1 else r.retryCount
    split <;> omega
  dispatchedAt _ := id

theorem setDispatched_continues (now : ℤ) (r : JobRow) :
    Continues r ((setDispatched now).set r) where
  tenantId := rfl
  priority := rfl
  payload := rfl
  createdAt := rfl
  maxRetries := rfl
  retryCount := le_rfl
  dispatchedAt t ht := by
    show r.dispatchedAt.or (some now) = some t
    rw [ht]
    rfl

theorem setState_continues (newState : String) (now : ℤ) (r : JobRow) :
    Continues r ((setState newState now).set r) :=
  ⟨rfl, rfl, rfl, rfl, rfl, le_rfl, fun _ => id⟩

/-- **Every `SET` clause** continues the row. -/
theorem Sets.continues (hu : Sets step u) (r : JobRow) : Continues r (u.set r) := by
  cases hu with
  | updateJobState jobId newState m => exact setState_continues newState m.now r
  | updateJobStateFromWorkerResult jobId newState m => exact setState_continues newState m.now r
  | scheduleRetryFromWorkerResult jobId retryDelaySeconds m =>
      exact setRetryPolicy_continues _ m.now r
  | requeueDueRetries now limit m => exact setState_continues _ m.now r
  | requeueDeadLetteredJob jobId m => exact ⟨rfl, rfl, rfl, rfl, rfl, le_rfl, fun _ => id⟩
  | markJobDispatched jobId m => exact setDispatched_continues m.now r
  | claimSchedulableJobs limit m => exact setDispatched_continues m.now r
  | result event now clock =>
      rw [ResultStateHandler.resultUpdate]
      split
      · exact setRetryPolicy_continues _ now r
      · split <;> exact setState_continues _ now r

/-- No clause dispatches a row without its `dispatched_at`, unless the caller passes the
state in. -/
theorem Sets.stamped (hu : Sets step u) (r : JobRow)
    (harg : step.stateArgument ≠ some JobState.dispatched.value)
    (hstate : (u.set r).state = JobState.dispatched.value) :
    ∃ t, (u.set r).dispatchedAt = some t := by
  have hpolicy : ∀ retryAfter now,
      ((setRetryPolicy retryAfter now).set r).state ≠ JobState.dispatched.value := by
    intro retryAfter now
    show (if r.retryCount < r.maxRetries then _ else _) ≠ _
    split <;> decide
  have hqueued : JobState.queued.value ≠ JobState.dispatched.value := by decide
  have hstamp : ∀ now, ∃ t, ((setDispatched now).set r).dispatchedAt = some t := by
    intro now
    show ∃ t, r.dispatchedAt.or (some now) = some t
    cases r.dispatchedAt with
    | none => exact ⟨now, rfl⟩
    | some t => exact ⟨t, rfl⟩
  cases hu with
  | updateJobState jobId newState m => exact absurd (congrArg some hstate) harg
  | updateJobStateFromWorkerResult jobId newState m => exact absurd (congrArg some hstate) harg
  | scheduleRetryFromWorkerResult jobId retryDelaySeconds m => exact absurd hstate (hpolicy _ _)
  | requeueDueRetries now limit m => exact absurd hstate hqueued
  | requeueDeadLetteredJob jobId m => exact absurd hstate hqueued
  | markJobDispatched jobId m => exact hstamp m.now
  | claimSchedulableJobs limit m => exact hstamp m.now
  | result event now clock =>
      rw [ResultStateHandler.resultUpdate] at hstate
      split at hstate
      · exact absurd hstate (hpolicy _ _)
      · split at hstate
        · exact absurd (show JobState.succeeded.value = _ from hstate) (by decide)
        · exact absurd (show JobState.failed.value = _ from hstate) (by decide)

/-- The `dispatched_at` that a clause writes is `NOW()`. -/
theorem Sets.dispatchedAt (hu : Sets step u) (r : JobRow) {t : ℤ}
    (ht : (u.set r).dispatchedAt = some t) : r.dispatchedAt = some t ∨ t = step.now := by
  have hstamp : ∀ now, r.dispatchedAt.or (some now) = some t → r.dispatchedAt = some t ∨ t = now := by
    intro now h
    cases hold : r.dispatchedAt with
    | none =>
        rw [hold] at h
        exact Or.inr (Option.some.inj h).symm
    | some t' =>
        rw [hold] at h
        exact Or.inl h
  cases hu with
  | markJobDispatched jobId m => exact hstamp m.now ht
  | claimSchedulableJobs limit m => exact hstamp m.now ht
  | result event now clock =>
      rw [ResultStateHandler.resultUpdate] at ht
      split at ht
      · exact Or.inl ht
      · split at ht <;> exact Or.inl ht
  | _ => exact Or.inl ht

/-- A row that the step has created. -/
structure Born (step : RepositoryStep) (r : JobRow) : Prop where
  state : step.stateArgument = some r.state
  createdAt : r.createdAt = step.now
  dispatchedAt : r.dispatchedAt = none

/-- **Where a row comes from**: it was there, and went through one clause at most, or the
step has created it. -/
theorem row_cases (h : (perform T step).1.find? jobId = some r') :
    (∃ r, T.find? jobId = some r ∧ (r' = r ∨ ∃ u, Sets step u ∧ r' = u.set r)) ∨
      T.find? jobId = none ∧ Born step r' := by
  -- what the step does is in `hwritten`; the call itself is not looked at any more
  have hwritten := written T step
  generalize (perform T step).1 = T' at hwritten h
  cases hwritten with
  | same => exact Or.inl ⟨r', h, Or.inl rfl⟩
  | created hcreate =>
      obtain ⟨row, -, -, hnow, hcreated, hfree, hfind⟩ := JobRepository.createJob_row hcreate
      rw [hfind] at h
      split at h
      · rename_i hjob
        cases h
        exact Or.inr ⟨hjob ▸ hfree, congrArg some hcreated.state_eq.symm, hnow,
          hcreated.dispatchedAt⟩
      · exact Or.inl ⟨r', h, Or.inl rfl⟩
  | deleted deletedId m =>
      rw [KeyedTable.find?_delete] at h
      split at h
      · cases h
      · exact Or.inl ⟨r', h, Or.inl rfl⟩
  | updated q hu =>
      rw [KeyedTable.find?_update] at h
      obtain ⟨r, hr, rfl⟩ := Option.map_eq_some_iff.mp h
      refine Or.inl ⟨r, hr, ?_⟩
      split
      · exact Or.inr ⟨_, hu, rfl⟩
      · exact Or.inl rfl

/-! ## Runs -/

theorem row_snoc {steps : List RepositoryStep}
    (h : (service.after T (steps ++ [step])).find? jobId = some r') :
    (∃ r, (service.after T steps).find? jobId = some r ∧
        (r' = r ∨ ∃ u, Sets step u ∧ r' = u.set r)) ∨
      (service.after T steps).find? jobId = none ∧ Born step r' := by
  rw [Service.after_append] at h
  exact row_cases h

/-- The job is there after every part of the run: nobody deletes it. -/
def Stays (T : Jobs) (jobId : String) (steps : List RepositoryStep) : Prop :=
  ∀ pre post, steps = pre ++ post → ∃ r, (service.after T pre).find? jobId = some r

theorem Stays.left {steps later : List RepositoryStep} (h : Stays T jobId (steps ++ later)) :
    Stays T jobId steps := by
  rintro pre post rfl
  exact h pre (post ++ later) (by rw [List.append_assoc])

/-- **A run continues the row** as long as the job stays. -/
theorem continues_after {steps : List RepositoryStep} (hstays : Stays T jobId steps)
    (hr : T.find? jobId = some r) (hr' : (service.after T steps).find? jobId = some r') :
    Continues r r' := by
  induction steps using List.reverseRecOn generalizing r' with
  | nil =>
      rw [Service.after_nil, hr] at hr'
      cases hr'
      exact Continues.refl r
  | append_singleton steps step ih =>
      rcases row_snoc hr' with ⟨r₁, hr₁, rfl | ⟨u, hu, rfl⟩⟩ | ⟨hnone, -⟩
      · exact ih hstays.left hr₁
      · exact (ih hstays.left hr₁).trans (hu.continues r₁)
      · -- a new row would mean that the job had been deleted
        obtain ⟨r₁, hr₁⟩ := hstays steps [step] rfl
        rw [hnone] at hr₁
        cases hr₁

/-- The database clock does not run backwards. -/
def Clocked (steps : List RepositoryStep) : Prop :=
  (steps.map now).Pairwise (· ≤ ·)

/-- What is known of a row that the run has created. -/
structure Dated (steps : List RepositoryStep) (r : JobRow) : Prop where
  stamped : r.state = JobState.dispatched.value → ∃ t, r.dispatchedAt = some t
  created : ∃ step ∈ steps, r.createdAt = step.now
  ordered : Clocked steps → ∀ t, r.dispatchedAt = some t → r.createdAt ≤ t

/-- No caller passes the state `dispatched` in. -/
def OnlyDispatchersDispatch (steps : List RepositoryStep) : Prop :=
  ∀ step ∈ steps, step.stateArgument ≠ some JobState.dispatched.value

theorem Clocked.left {steps : List RepositoryStep} (h : Clocked (steps ++ [step])) :
    Clocked steps ∧ ∀ s ∈ steps, s.now ≤ step.now := by
  rw [Clocked, List.map_append, List.map_singleton, List.pairwise_append] at h
  exact ⟨h.1, fun s hs => h.2.2 _ (List.mem_map_of_mem hs) _ (List.mem_singleton_self _)⟩

theorem dated_step {steps : List RepositoryStep} (h : Dated steps r) (hu : Sets step u)
    (harg : step.stateArgument ≠ some JobState.dispatched.value) :
    Dated (steps ++ [step]) (u.set r) where
  stamped := hu.stamped r harg
  created := by
    obtain ⟨s, hs, hnow⟩ := h.created
    exact ⟨s, List.mem_append_left _ hs, (hu.continues r).createdAt.trans hnow⟩
  ordered hclock t ht := by
    rw [(hu.continues r).createdAt]
    rcases hu.dispatchedAt r ht with hold | rfl
    · exact h.ordered hclock.left.1 t hold
    · obtain ⟨s, hs, hnow⟩ := h.created
      rw [hnow]
      exact hclock.left.2 s hs

theorem dated_after {steps : List RepositoryStep} (hnew : T.find? jobId = none)
    (honly : OnlyDispatchersDispatch steps)
    (hr : (service.after T steps).find? jobId = some r) : Dated steps r := by
  induction steps using List.reverseRecOn generalizing r with
  | nil =>
      rw [Service.after_nil, hnew] at hr
      cases hr
  | append_singleton steps step ih =>
      have honly' : OnlyDispatchersDispatch steps :=
        fun s hs => honly s (List.mem_append_left _ hs)
      have harg := honly step (by simp)
      rcases row_snoc hr with ⟨r₁, hr₁, rfl | ⟨u, hu, rfl⟩⟩ | ⟨-, hborn⟩
      · have hdated := ih honly' hr₁
        obtain ⟨s, hs, hnow⟩ := hdated.created
        exact ⟨hdated.stamped, ⟨s, List.mem_append_left _ hs, hnow⟩,
          fun hclock => hdated.ordered hclock.left.1⟩
      · exact dated_step (ih honly' hr₁) hu harg
      · refine ⟨?_, ⟨step, by simp, hborn.createdAt⟩, ?_⟩
        · -- a row is created in the state that the caller passes in
          intro hstate
          exact absurd (hborn.state.trans (congrArg some hstate)) harg
        · intro _ t ht
          rw [hborn.dispatchedAt] at ht
          cases ht

end RepositoryStep

open RepositoryStep

/-- **The history of a row**, between the creation of a job and its deletion. -/
theorem row_history (T : Jobs) (jobId : String) (steps : List RepositoryStep) :
    (Stays T jobId steps → ∀ r r', T.find? jobId = some r →
      (service.after T steps).find? jobId = some r' → Continues r r') ∧
    (T.find? jobId = none → OnlyDispatchersDispatch steps →
      ∀ r, (service.after T steps).find? jobId = some r →
        r.state = JobState.dispatched.value →
          ∃ t, r.dispatchedAt = some t ∧ (Clocked steps → r.createdAt ≤ t)) := by
  constructor
  · intro hstays r r' hr hr'
    exact continues_after hstays hr hr'
  · intro hnew honly r hr hstate
    have hdated := dated_after hnew honly hr
    obtain ⟨t, ht⟩ := hdated.stamped hstate
    exact ⟨t, ht, fun hclock => hdated.ordered hclock t ht⟩

/-! ## A job that is dispatched twice -/

namespace Dispatched

/-- A call that the server answers. -/
def call (t : ℤ) (k : RepositoryCall) : RepositoryStep := .call k ⟨t, t, .quiet, fun _ => none⟩

def created : List RepositoryStep :=
  [call 10 (.createJob "job" "tenant" 5 JobState.queued.value (some .empty) 3)]

/-- Its first attempt fails, and it is dispatched once more. -/
def retried : List RepositoryStep :=
  [call 20 (.claimSchedulableJobs 10), call 30 (.scheduleRetryFromWorkerResult "job" 5),
    call 40 (.requeueDueRetries 40 10), call 50 (.markJobDispatched "job")]

theorem stays_retried : Stays (service.after .empty created) "job" retried := by
  have hall : ∀ n ∈ List.range 5, ((service.after (service.after .empty created)
      (retried.take n)).find? "job").isSome = true := by
    decide +kernel
  intro pre post heq
  have hpre : retried.take pre.length = pre := by rw [heq, List.take_left]
  have hlength : pre.length < 5 := by
    have hle := congrArg List.length heq
    rw [List.length_append] at hle
    have hfour : retried.length = 4 := rfl
    omega
  have hsome := hall pre.length (List.mem_range.mpr hlength)
  rw [hpre] at hsome
  exact Option.isSome_iff_exists.mp hsome

end Dispatched

theorem row_history_dispatched :
    ∃ r r', (service.after .empty Dispatched.created).find? "job" = some r ∧
      (service.after .empty (Dispatched.created ++ Dispatched.retried)).find? "job" = some r' ∧
      r'.retryCount = 1 ∧ Continues r r' ∧
      ∃ t, r'.dispatchedAt = some t ∧ r'.createdAt ≤ t := by
  have hall : (((service.after .empty Dispatched.created).find? "job").isSome &&
      ((service.after .empty (Dispatched.created ++ Dispatched.retried)).find? "job").any fun r =>
        decide (r.retryCount = 1) && decide (r.state = JobState.dispatched.value)) = true := by
    decide +kernel
  obtain ⟨hfirst, hall⟩ := Bool.and_eq_true_iff.mp hall
  obtain ⟨r, hr⟩ := Option.isSome_iff_exists.mp hfirst
  obtain ⟨r', hr', hall⟩ := (Option.any_eq_true _ _).mp hall
  obtain ⟨hcount, hstate⟩ := Bool.and_eq_true_iff.mp hall
  have hr'' := hr'
  rw [Service.after_append] at hr''
  obtain ⟨t, ht, hle⟩ := (row_history .empty "job" (Dispatched.created ++ Dispatched.retried)).2 rfl
    (by unfold OnlyDispatchersDispatch; decide +kernel) r' hr' (of_decide_eq_true hstate)
  exact ⟨r, r', hr, hr', of_decide_eq_true hcount,
    (row_history _ "job" Dispatched.retried).1 Dispatched.stays_retried r r' hr hr'',
    t, ht, hle (by unfold Clocked; decide +kernel)⟩

end KernelQ.ControlPlane
