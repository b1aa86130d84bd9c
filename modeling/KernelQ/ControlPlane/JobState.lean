import Mathlib.Logic.Basic

/-!
# The job state machine

`job_state.py`: the nine lifecycle states, the three terminal ones, the allowed
transitions. The database stores a state as text (`JobState.value`), so every
comparison the repository makes is between values; `value_inj` brings it back
to the states.
-/

namespace KernelQ.ControlPlane

inductive JobState
  | created | queued | dispatched | running | succeeded | failed
  | retryScheduled | deadLettered | canceled
  deriving DecidableEq, Repr

namespace JobState

def value : JobState → String
  | created => "created"
  | queued => "queued"
  | dispatched => "dispatched"
  | running => "running"
  | succeeded => "succeeded"
  | failed => "failed"
  | retryScheduled => "retry_scheduled"
  | deadLettered => "dead_lettered"
  | canceled => "canceled"

/-- `JobState(state_value)`; `none` is its `ValueError`. -/
def ofValue? : String → Option JobState
  | "created" => some created
  | "queued" => some queued
  | "dispatched" => some dispatched
  | "running" => some running
  | "succeeded" => some succeeded
  | "failed" => some failed
  | "retry_scheduled" => some retryScheduled
  | "dead_lettered" => some deadLettered
  | "canceled" => some canceled
  | _ => none

theorem ofValue?_value (s : JobState) : ofValue? s.value = some s := by
  cases s <;> rfl

@[simp] theorem value_inj {s t : JobState} : s.value = t.value ↔ s = t := by
  constructor
  · intro h
    have hs := ofValue?_value s
    rw [h, ofValue?_value t] at hs
    exact (Option.some.inj hs).symm
  · rintro rfl
    rfl

theorem eq_value_of_ofValue? {v : String} {s : JobState} (h : ofValue? v = some s) :
    v = s.value := by
  unfold ofValue? at h
  split at h <;> cases h <;> rfl

theorem ofValue?_eq_some_iff {v : String} {s : JobState} : ofValue? v = some s ↔ v = s.value :=
  ⟨eq_value_of_ofValue?, fun h => h ▸ ofValue?_value s⟩

end JobState

def terminalStates : List JobState := [.succeeded, .deadLettered, .canceled]

def allowedTransitions : JobState → List JobState
  | .created => [.queued, .canceled]
  | .queued => [.dispatched, .canceled]
  | .dispatched => [.running, .queued]
  | .running => [.succeeded, .failed, .canceled]
  | .retryScheduled => [.queued, .canceled]
  | .failed => [.retryScheduled, .deadLettered]
  | .succeeded => []
  | .deadLettered => []
  | .canceled => []

def canTransition (fromState toState : JobState) : Bool :=
  if fromState ∈ terminalStates then false
  else decide (toState ∈ allowedTransitions fromState)

/-- **Terminal states are final**, as far as the table is asked. -/
theorem canTransition_of_terminal {s : JobState} (h : s ∈ terminalStates) (t : JobState) :
    canTransition s t = false :=
  if_pos h

/-- The guard in front of the table excludes nothing the table allows. -/
theorem canTransition_eq (s t : JobState) :
    canTransition s t = decide (t ∈ allowedTransitions s) := by
  cases s <;> cases t <;> rfl

/-- No state may be written over itself. -/
theorem canTransition_self (s : JobState) : canTransition s s = false := by
  cases s <;> rfl

end KernelQ.ControlPlane
