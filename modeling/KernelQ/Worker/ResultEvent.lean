import KernelQ.Foundation.JsonStyle
import KernelQ.Worker.DispatchEvent

/-!
# Results, as the worker reports them

`execution_result.go`, `result_event.go` and `kafka_result_producer.go`. The
event says which job has run and how it went; it has no attempt.
-/

namespace KernelQ.Worker

open KernelQ.Foundation

def executionSucceeded : String := "succeeded"

def executionRetryableFailure : String := "retryable_failure"

def executionTerminalFailure : String := "terminal_failure"

def executionDuplicateSkipped : String := "duplicate_skipped"

def executionStatuses : List String :=
  [executionSucceeded, executionRetryableFailure, executionTerminalFailure,
    executionDuplicateSkipped]

/-- The statuses that go on the wire. -/
def resultStatuses : List String :=
  [executionSucceeded, executionRetryableFailure, executionTerminalFailure]

structure ExecutionResult where
  status : String := ""
  message : String := ""
  deriving DecidableEq

inductive ResultError
  | executionStatus (got : String)
  | eventType (got : String)
  | jobIdBlank
  | status (got : String)
  | workerBlank
  deriving DecidableEq

/-- The text of the error, given `%q`. -/
def ResultError.text (quote : String → String) : ResultError → String
  | executionStatus got =>
      "status must be one of " ++ ", ".intercalate (executionStatuses.map quote) ++ ", got " ++
        quote got
  | eventType got => "event_type must be " ++ quote "job.result" ++ ", got " ++ quote got
  | jobIdBlank => "job_id must not be blank"
  | status got =>
      "status must be one of " ++ ", ".intercalate (resultStatuses.map quote) ++ ", got " ++
        quote got
  | workerBlank => "worker must not be blank"

namespace ExecutionResult

def validate (r : ExecutionResult) : Except ResultError Unit :=
  if r.status ∈ executionStatuses then .ok () else .error (.executionStatus r.status)

def duplicateSkipped : ExecutionResult := ⟨executionDuplicateSkipped, "duplicate execution skipped"⟩

end ExecutionResult

def workerResultEventType : String := "job.result"

structure WorkerResultEvent where
  eventType : String
  jobId : String
  status : String
  message : String
  worker : String
  deriving DecidableEq

def newWorkerResultEvent (jobId : String) (result : ExecutionResult) (worker : String) :
    WorkerResultEvent where
  eventType := workerResultEventType
  jobId := jobId
  status := result.status
  message := result.message
  worker := worker

namespace WorkerResultEvent

def validate (e : WorkerResultEvent) : Except ResultError Unit := do
  if e.eventType ≠ workerResultEventType then .error (.eventType e.eventType)
  if trimSpace e.jobId = "" then .error .jobIdBlank
  if e.status ∈ resultStatuses then (ExecutionResult.mk e.status e.message).validate
  else .error (.status e.status)
  if trimSpace e.worker = "" then .error .workerBlank

/-- The struct as an object: one member per field, in order. -/
def members (e : WorkerResultEvent) : List (String × Json) :=
  [("event_type", .str e.eventType), ("job_id", .str e.jobId), ("status", .str e.status),
    ("message", .str e.message), ("worker", .str e.worker)]

def toJSON (e : WorkerResultEvent) : Except ResultError String := do
  e.validate
  return String.ofList ((Json.obj e.members).render .go)

theorem validate_eq_ok_iff {e : WorkerResultEvent} : e.validate = .ok () ↔
    e.eventType = workerResultEventType ∧ trimSpace e.jobId ≠ "" ∧ e.status ∈ resultStatuses ∧
      trimSpace e.worker ≠ "" := by
  unfold validate
  by_cases h₁ : e.eventType = workerResultEventType
  · by_cases h₂ : trimSpace e.jobId = ""
    · simp [h₁, h₂, bind, Except.bind]
    · by_cases h₃ : e.status ∈ resultStatuses
      · have hstatus : e.status ∈ executionStatuses := List.mem_append_left _ h₃
        by_cases h₄ : trimSpace e.worker = "" <;>
          simp [h₁, h₂, h₃, h₄, hstatus, ExecutionResult.validate, bind, Except.bind, pure,
            Except.pure]
      · simp [h₁, h₂, h₃, bind, Except.bind]
  · simp [h₁, bind, Except.bind]

/-- What is on the wire. -/
theorem toJSON_eq_ok_iff {e : WorkerResultEvent} {text : String} : e.toJSON = .ok text ↔
    e.validate = .ok () ∧ text = String.ofList ((Json.obj e.members).render .go) := by
  unfold toJSON
  cases e.validate with
  | error err => simp [bind, Except.bind]
  | ok u => simp [bind, Except.bind, pure, Except.pure, eq_comm]

end WorkerResultEvent

/-- Why a result is not published. -/
inductive PublishError
  | invalid (e : ResultError)
  | backend (message : String)
  deriving DecidableEq

/-- `KafkaResultProducer.PublishResult`: `produce` sends a key and a value, and
waits for the broker. -/
def publishResult {ω : Type} (produce : ω → String → ByteArray → ω × Option String) (world : ω)
    (event : WorkerResultEvent) : ω × Except PublishError Unit :=
  match event.validate with
  | .error e => (world, .error (.invalid e))
  | .ok () =>
      match event.toJSON with
      | .error e => (world, .error (.invalid e))
      | .ok text =>
          match produce world event.jobId text.toUTF8 with
          | (world, none) => (world, .ok ())
          | (world, some message) => (world, .error (.backend message))

end KernelQ.Worker
