import KernelQ.Worker.ExecutionIdempotencyKey
import KernelQ.Worker.ResultEvent

/-!
# Handling a dispatch event

`handler.go`: claim the execution key, execute the task, publish the result.
Everything the handler calls is a function on the state `ω` of its surroundings;
a field that is `nil` in Go is `none` here. The three halves of `handle` have
their own definitions, and `handle` is their sequence.
-/

namespace KernelQ.Worker

open KernelQ.Foundation

structure Task where
  jobId : String
  tenantId : String
  priority : ℤ
  payload : Option StringMap
  deriving DecidableEq

inductive TaskError
  | jobIdBlank
  | tenantIdBlank
  | priority (got : ℤ)
  deriving DecidableEq

def TaskError.text : TaskError → String
  | jobIdBlank => "job id must not be blank"
  | tenantIdBlank => "tenant id must not be blank"
  | priority got => "priority must be >= 0, got " ++ String.ofList (intText got)

def validateTask (task : Task) : Except TaskError Unit :=
  if trimSpace task.jobId = "" then .error .jobIdBlank
  else if trimSpace task.tenantId = "" then .error .tenantIdBlank
  else if task.priority < 0 then .error (.priority task.priority)
  else .ok ()

/-- Where faults can be injected. -/
inductive Point
  | beforeClaim | afterClaim | beforeExecute | afterExecute | beforeResultPublish
  | afterResultPublish
  deriving DecidableEq

inductive HandleError
  | executorMissing
  | injected (message : String)
  | key (e : KeyError)
  | claim (e : ClaimError)
  | task (e : TaskError)
  | execute (message : String)
  | result (e : ResultError)
  | publish (e : PublishError)
  deriving DecidableEq

/-- 24 hours. -/
def defaultExecutionIdempotencyTTL : ℤ := 24 * 3600 * 10 ^ 9

def workerIdentity : String := "kernelq-go-worker"

structure DispatchEventHandler (ω : Type) where
  executor : Option (ω → Task → ω × Except String ExecutionResult)
  resultProducer : Option (ω → WorkerResultEvent → ω × Except PublishError Unit) := none
  workerName : String := ""
  idempotencyStore : Option (ω → String → ℤ → ω × Except ClaimError Bool) := none
  idempotencyTTL : ℤ := 0
  faultInjector : Option (ω → Point → ω × Option String) := none

/-- The handler's counters and its surroundings. -/
structure Surroundings (ω : Type) where
  world : ω
  duplicateExecutions : ℕ := 0
  idempotencyErrors : ℕ := 0

namespace DispatchEventHandler

variable {ω : Type} (handler : DispatchEventHandler ω)

def inject (s : Surroundings ω) (point : Point) : Surroundings ω × Except HandleError Unit :=
  match handler.faultInjector with
  | none => (s, .ok ())
  | some injector =>
      match injector s.world point with
      | (world, none) => ({ s with world }, .ok ())
      | (world, some message) => ({ s with world }, .error (.injected message))

def ttl : ℤ :=
  if handler.idempotencyTTL ≤ 0 then defaultExecutionIdempotencyTTL else handler.idempotencyTTL

/-- Step 2: `false` is a duplicate. -/
def claim (s : Surroundings ω) (event : DispatchEvent) :
    Surroundings ω × Except HandleError Bool :=
  match handler.idempotencyStore with
  | none => (s, .ok true)
  | some tryClaim =>
      match executionIdempotencyKey event.jobId event.attempt with
      | .error e => (s, .error (.key e))
      | .ok key =>
          match tryClaim s.world key handler.ttl with
          | (world, .error e) =>
              ({ s with world, idempotencyErrors := s.idempotencyErrors + 1 }, .error (.claim e))
          | (world, .ok false) =>
              ({ s with world, duplicateExecutions := s.duplicateExecutions + 1 }, .ok false)
          | (world, .ok true) =>
              match handler.inject { s with world } .afterClaim with
              | (s, .error e) => (s, .error e)
              | (s, .ok ()) => (s, .ok true)

def taskOf (event : DispatchEvent) : Task where
  jobId := event.jobId
  tenantId := event.tenantId
  priority := event.priority
  payload := event.payload

/-- Steps 3 to 6. -/
def execute (execute : ω → Task → ω × Except String ExecutionResult) (s : Surroundings ω)
    (event : DispatchEvent) : Surroundings ω × Except HandleError ExecutionResult :=
  match validateTask (taskOf event) with
  | .error e => (s, .error (.task e))
  | .ok () =>
      match handler.inject s .beforeExecute with
      | (s, .error e) => (s, .error e)
      | (s, .ok ()) =>
          match execute s.world (taskOf event) with
          | (world, .error message) => ({ s with world }, .error (.execute message))
          | (world, .ok result) =>
              match handler.inject { s with world } .afterExecute with
              | (s, .error e) => (s, .error e)
              | (s, .ok ()) =>
                  match result.validate with
                  | .error e => (s, .error (.result e))
                  | .ok () => (s, .ok result)

/-- The worker on the result event. -/
def resultWorker : String :=
  if trimSpace handler.workerName = "" then workerIdentity else handler.workerName

/-- The result event of step 7. -/
def resultEvent (event : DispatchEvent) (result : ExecutionResult) : WorkerResultEvent :=
  newWorkerResultEvent event.jobId result handler.resultWorker

/-- Step 7. -/
def publish (s : Surroundings ω) (event : DispatchEvent) (result : ExecutionResult) :
    Surroundings ω × Except HandleError Unit :=
  match handler.resultProducer with
  | none => (s, .ok ())
  | some publishResult =>
      if result.status = executionDuplicateSkipped then (s, .ok ())
      else
        match handler.inject s .beforeResultPublish with
        | (s, .error e) => (s, .error e)
        | (s, .ok ()) =>
            match publishResult s.world (handler.resultEvent event result) with
            | (world, .error e) => ({ s with world }, .error (.publish e))
            | (world, .ok ()) => handler.inject { s with world } .afterResultPublish

/-- The result, and the error if there is one. -/
def handle (s : Surroundings ω) (event : DispatchEvent) :
    Surroundings ω × ExecutionResult × Option HandleError :=
  match handler.executor with
  | none => (s, {}, some .executorMissing)
  | some executor =>
      match handler.inject s .beforeClaim with
      | (s, .error e) => (s, {}, some e)
      | (s, .ok ()) =>
          match handler.claim s event with
          | (s, .error e) => (s, {}, some e)
          | (s, .ok false) => (s, .duplicateSkipped, none)
          | (s, .ok true) =>
              match handler.execute executor s event with
              | (s, .error e) => (s, {}, some e)
              | (s, .ok result) =>
                  match handler.publish s event result with
                  | (s, .error e) => (s, result, some e)
                  | (s, .ok ()) => (s, result, none)

theorem resultWorker_ne : trimSpace handler.resultWorker ≠ "" := by
  unfold resultWorker
  split
  · decide +kernel
  · assumption

end DispatchEventHandler

end KernelQ.Worker
