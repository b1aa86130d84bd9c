import KernelQ.ControlPlane.DispatchFreshness
import KernelQ.ControlPlane.ResultConsumer
import KernelQ.ControlPlane.ResultHandler
import KernelQ.Worker.Consumer

/-!
# The whole pipeline

Postgres, the scheduler with its dispatch keys, the worker with its execution
keys, the result consumer with its result keys, and the two topics between them.
A topic keeps its messages: any of them can be delivered at any time, in any
order and any number of times. No key expires, and nothing fails or crashes.

Every message remembers the generation it was published for: its job, and the
`retry_count` of the job's row when it was claimed. The code does not see it.
-/

namespace KernelQ.Pipeline

open KernelQ.Foundation KernelQ.ControlPlane

/-- A job and a `retry_count` it was claimed with. -/
abbrev Generation := String × ℕ

structure Dispatch where
  event : DispatchEvent
  retryCount : ℕ

def Dispatch.generation (m : Dispatch) : Generation := (m.event.jobId, m.retryCount)

def Dispatch.value (m : Dispatch) : ByteArray := m.event.toJson.toUTF8

/-- The payload is made of strings and `null`s. -/
def Dispatch.Readable (m : Dispatch) : Prop :=
  ∀ member ∈ m.event.payload.fields, (entryOf member).isSome

instance (m : Dispatch) : Decidable m.Readable :=
  inferInstanceAs (Decidable (∀ member ∈ _, _))

structure Result where
  message : ResultMessage
  generation : Generation

structure State where
  system : System
  dispatchKeys : List String := []
  executionKeys : List String := []
  resultKeys : List String := []
  dispatches : List Dispatch := []
  results : List Result := []
  /-- What the executor was called with, and for which generation. -/
  executions : List (Generation × Worker.Task) := []
  /-- The generations whose result the handler has applied. -/
  applied : List Generation := []

/-- In a delivery to the worker, `outcome` is what its executor will say. -/
inductive Action
  | request (q : Request)
  | write (i : ℕ) (now : ℤ)
  | scan (E : Executor) (stamp now limit : ℤ)
  | requeueDeadLettered (jobId : String) (now : ℤ)
  | tick (runner : SchedulerTickRunner) (E : Executor) (now : ℤ)
  | deliverDispatch (i : ℕ) (outcome : Worker.ExecutionResult)
  | deliverResult (i : ℕ) (now clock : ℤ)

/-- The steps that touch the jobs table only. -/
def Action.onTable : Action → Option ControlPlane.Action
  | request q => some (.request q)
  | write i now => some (.write i now)
  | scan E stamp now limit => some (.scan E stamp now limit)
  | requeueDeadLettered jobId now => some (.requeueDeadLettered jobId now)
  | _ => none

/-- The `retry_count` of a job among the jobs claimed in a tick. -/
def retryCountOf (jobs : List JobRecord) (jobId : String) : ℕ :=
  ((jobs.find? fun job => decide (job.jobId = jobId)).map JobRecord.retryCount).getD 0

namespace State

def start : State := { system := .start .empty }

def tick (s : State) (runner : SchedulerTickRunner) (E : Executor) (now : ℤ) : State :=
  let w := (runner.runOnce claimedKeys dispatchTopic E now ⟨s.system.jobs, s.dispatchKeys, []⟩).1
  let jobs := Dispatching.claimedJobs s.system.jobs runner E now
  { s with
    system := { s.system with jobs := w.jobs }
    dispatchKeys := w.store
    dispatches := s.dispatches ++
      w.producer.map fun event => ⟨event, retryCountOf jobs event.jobId⟩ }

/-- The worker's consumer gets the message. -/
def deliverDispatch (s : State) (m : Dispatch) (outcome : Worker.ExecutionResult) : State :=
  let w := (Worker.processMessage (some (Worker.consumerHandler outcome))
    ⟨⟨s.executionKeys, [], []⟩, 0, 0⟩ m.value).1.world
  { s with
    executionKeys := w.claimed
    executions := s.executions ++ w.executed.map fun task => (m.generation, task)
    results := s.results ++ w.published.map fun r => ⟨⟨r.1, r.2⟩, m.generation⟩ }

/-- The result consumer gets the message; its handler works on the jobs table. -/
def deliverResult (repr : Json → String) (s : State) (m : Result) (now clock : ℤ) : State :=
  let r := ResultConsumerRunner.processMessage claimedKeys
    (fun jobs event => ResultStateHandler.handle jobs now clock event) repr defaultDedupeTtlSeconds
    ⟨s.resultKeys, s.system.jobs, 0, 0⟩ m.message
  { s with
    system := { s.system with jobs := r.1.handler }
    resultKeys := r.1.store
    applied :=
      match r.2 with
      | .handled (.ok ()) => s.applied ++ [m.generation]
      | _ => s.applied }

def step (repr : Json → String) (s : State) : Action → Option State
  | .tick runner E now =>
      if runner.dispatchDedupeTtlSeconds ≤ 0 then none else some (s.tick runner E now)
  | .deliverDispatch i outcome =>
      if outcome.status ∈ Worker.resultStatuses then
        (s.dispatches[i]?).map fun m => s.deliverDispatch m outcome
      else none
  | .deliverResult i now clock => (s.results[i]?).map fun m => s.deliverResult repr m now clock
  | a => (a.onTable.bind s.system.step).map fun system => { s with system }

end State

def machine (repr : Json → String) : Machine State Action := ⟨State.step repr⟩

/-! ## What each stage owes a message -/

/-- The generation was published, is executed or is applied: now, or before if
the stage took the message for a replay. -/
def Faithful (repr : Json → String) (s : State) (a : Action) : Prop :=
  ∀ t ∈ s.step repr a,
    match a with
    | .tick runner E now =>
        ∀ job ∈ Dispatching.claimedJobs s.system.jobs runner E now,
          (job.jobId, job.retryCount) ∈ t.dispatches.map Dispatch.generation
    | .deliverDispatch i _ =>
        ∀ m ∈ s.dispatches[i]?, ∃ e ∈ t.executions, e.1 = m.generation ∧ e.2.jobId = m.event.jobId
    | .deliverResult i _ _ => ∀ m ∈ s.results[i]?, m.generation ∈ t.applied
    | _ => True

/-- Ids that stripping leaves apart, in generations with the same number. -/
def Apart (g g' : Generation) : Prop := g.2 = g'.2 → strip g.1 = strip g'.1 → g.1 = g'.1

/-- A tick claims no blank id, and none that strips to another one claimed with
the same number; the worker is handed first attempts with readable payloads. -/
def Aligned (s : State) : Action → Prop
  | .tick runner E _ => 0 < runner.dispatchDedupeTtlSeconds →
      ∀ r ∈ JobRepository.schedulableRows s.system.jobs E runner.maxJobsPerTick.toNat,
        strip r.jobId ≠ "" ∧
          (∀ m ∈ s.dispatches, Apart m.generation (r.jobId, r.retryCount)) ∧
          ∀ r' ∈ JobRepository.schedulableRows s.system.jobs E runner.maxJobsPerTick.toNat,
            Apart (r'.jobId, r'.retryCount) (r.jobId, r.retryCount)
  | .deliverDispatch i outcome => outcome.status ∈ Worker.resultStatuses →
      ∀ m ∈ s.dispatches[i]?, m.retryCount = 0 ∧ m.Readable
  | _ => True

instance (g g' : Generation) : Decidable (Apart g g') :=
  inferInstanceAs (Decidable (_ → _ → _))

instance (repr : Json → String) (s : State) : ∀ a, Decidable (Faithful repr s a)
  | .tick _ _ _ => inferInstanceAs (Decidable (∀ t ∈ s.step repr _, ∀ job ∈ _, _))
  | .deliverDispatch _ _ => inferInstanceAs (Decidable (∀ t ∈ s.step repr _, ∀ m ∈ _, ∃ e ∈ _, _))
  | .deliverResult _ _ _ => inferInstanceAs (Decidable (∀ t ∈ s.step repr _, ∀ m ∈ _, _))
  | .request _ => isTrue fun _ _ => trivial
  | .write _ _ => isTrue fun _ _ => trivial
  | .scan _ _ _ _ => isTrue fun _ _ => trivial
  | .requeueDeadLettered _ _ => isTrue fun _ _ => trivial

instance (s : State) : ∀ a, Decidable (Aligned s a)
  | .tick _ _ _ => inferInstanceAs (Decidable (_ → ∀ r ∈ _, _ ∧ (∀ m ∈ _, _) ∧ ∀ r' ∈ _, _))
  | .deliverDispatch _ _ => inferInstanceAs (Decidable (_ → ∀ m ∈ _, _ ∧ _))
  | .deliverResult _ _ _ => isTrue trivial
  | .request _ => isTrue trivial
  | .write _ _ => isTrue trivial
  | .scan _ _ _ _ => isTrue trivial
  | .requeueDeadLettered _ _ => isTrue trivial

end KernelQ.Pipeline
