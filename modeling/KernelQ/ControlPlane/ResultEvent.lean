import KernelQ.Foundation.JsonStyle
import KernelQ.ControlPlane.IdempotencyKeys

/-!
# Worker result events, as the control plane reads them

`result_event.py`. `str()` is the identity on a JSON string; on numbers with a
fraction, arrays and objects it prints Python's `repr`, which is the parameter
`repr`. The `\u` escape of an unpaired surrogate and the constants `NaN` and
`Infinity`, which `json.loads` takes as well, have no counterpart here: such a
text counts as invalid JSON.
-/

namespace KernelQ.ControlPlane

open KernelQ.Foundation

def workerResultEventType : String := "job.result"

def allowedStatuses : List String := ["retryable_failure", "succeeded", "terminal_failure"]

structure WorkerResultEvent where
  eventType : String
  jobId : String
  status : String
  message : String
  worker : String
  attempt : PyInt := .int 0
  deriving DecidableEq

/-- The `ValueError`s of this module. -/
inductive ResultEventError
  | notUtf8
  | invalidJson
  | notAnObject
  | eventType (got : String)
  | jobIdBlank
  | status (got : String)
  | workerBlank
  | attempt
  deriving DecidableEq

namespace ResultEventError

/-- The text of the error, given `repr` of a string. -/
def text (repr : String → String) : ResultEventError → String
  | notUtf8 => "result event must be valid UTF-8"
  | invalidJson => "invalid JSON for worker result event"
  | notAnObject => "worker result event must be a JSON object"
  | eventType got => "event_type must be " ++ repr workerResultEventType ++ ", got " ++ repr got
  | jobIdBlank => "job_id must not be blank"
  | status got =>
      "status must be one of: " ++ ", ".intercalate allowedStatuses ++ ", got " ++ repr got
  | workerBlank => "worker must not be blank"
  | attempt => "attempt must be a non-negative integer"

end ResultEventError

namespace WorkerResultEvent

def validate (e : WorkerResultEvent) : Except ResultEventError Unit :=
  if e.eventType ≠ workerResultEventType then .error (.eventType e.eventType)
  else if strip e.jobId = "" then .error .jobIdBlank
  else if e.status ∉ allowedStatuses then .error (.status e.status)
  else if strip e.worker = "" then .error .workerBlank
  else if e.attempt.toInt < 0 then .error .attempt
  else .ok ()

/-- What `validate` accepts. -/
structure Valid (e : WorkerResultEvent) : Prop where
  eventType : e.eventType = workerResultEventType
  jobId : strip e.jobId ≠ ""
  status : e.status ∈ allowedStatuses
  worker : strip e.worker ≠ ""
  attempt : 0 ≤ e.attempt.toInt

theorem validate_eq_ok_iff {e : WorkerResultEvent} : e.validate = .ok () ↔ e.Valid := by
  unfold validate
  constructor
  · intro h
    split at h
    · cases h
    split at h
    · cases h
    split at h
    · cases h
    split at h
    · cases h
    split at h
    · cases h
    · rename_i h₁ h₂ h₃ h₄ h₅
      exact ⟨not_not.mp h₁, h₂, not_not.mp h₃, h₄, not_lt.mp h₅⟩
  · rintro ⟨h₁, h₂, h₃, h₄, h₅⟩
    rw [if_neg (not_not.mpr h₁), if_neg h₂, if_neg (not_not.mpr h₃), if_neg h₄,
      if_neg (not_lt.mpr h₅)]

instance (e : WorkerResultEvent) : Decidable e.Valid :=
  decidable_of_iff (e.validate = .ok ()) validate_eq_ok_iff

def toDict (e : WorkerResultEvent) : List (String × Json) :=
  [("event_type", .str e.eventType), ("job_id", .str e.jobId), ("status", .str e.status),
    ("message", .str e.message), ("worker", .str e.worker),
    ("attempt", match e.attempt with | .int i => .int i | .bool b => .bool b)]

def toJson (e : WorkerResultEvent) : Except ResultEventError String := do
  e.validate
  return String.ofList ((Json.obj e.toDict).render .python)

theorem toJson_of_valid {e : WorkerResultEvent} (h : e.Valid) :
    e.toJson = .ok (String.ofList ((Json.obj e.toDict).render .python)) := by
  rw [toJson, validate_eq_ok_iff.mpr h]
  rfl

end WorkerResultEvent

/-- `dict.get`: of a repeated key, `json.loads` keeps the last value. -/
def dictGet? (fields : List (String × Json)) (key : String) : Option Json :=
  fields.reverse.lookup key

/-- `str`. -/
def pyStr (repr : Json → String) : Json → String
  | .str s => s
  | .null => "None"
  | .bool b => (PyInt.bool b).format
  | .int i => (PyInt.int i).format
  | v => repr v

def pyInt? : Json → Option PyInt
  | .int i => some (.int i)
  | .bool b => some (.bool b)
  | _ => none

/-- The event that the fields of an object make up, before `validate`. -/
def eventOfDict (repr : Json → String) (payload : List (String × Json)) :
    Except ResultEventError WorkerResultEvent :=
  let get key := pyStr repr ((dictGet? payload key).getD (.str ""))
  match pyInt? ((dictGet? payload "attempt").getD (.int 0)) with
  | none => .error .attempt
  | some rawAttempt =>
      .ok
        { eventType := get "event_type"
          jobId := get "job_id"
          status := get "status"
          message := get "message"
          worker := get "worker"
          attempt := rawAttempt }

def parseWorkerResultEvent (repr : Json → String) (data : ByteArray) :
    Except ResultEventError WorkerResultEvent :=
  match String.fromUTF8? data with
  | none => .error .notUtf8
  | some text =>
      match Json.parse none text.toList with
      | none => .error .invalidJson
      | some (.obj payload) => do
          let event ← eventOfDict repr payload
          event.validate
          return event
      | some _ => .error .notAnObject

/-! ## What is parsed -/

theorem fromUTF8?_toUTF8 (s : String) : String.fromUTF8? s.toUTF8 = some s := by
  have hvalid : s.toUTF8.IsValidUTF8 := s.isValidUTF8
  rw [String.fromUTF8?, dif_pos hvalid]
  rfl

theorem eventOfDict_toDict (repr : Json → String) (e : WorkerResultEvent) :
    eventOfDict repr e.toDict = .ok e := by
  obtain ⟨eventType, jobId, status, message, worker, attempt⟩ := e
  cases attempt <;> rfl

/-- The text of an object, parsed. -/
theorem parseWorkerResultEvent_render (repr : Json → String) (S : Style)
    (payload : List (String × Json)) :
    parseWorkerResultEvent repr (String.ofList ((Json.obj payload).render S)).toUTF8 = (do
      let event ← eventOfDict repr payload
      event.validate
      return event) := by
  rw [parseWorkerResultEvent, fromUTF8?_toUTF8]
  simp only [String.toList_ofList, Json.parse_render]

/-- **Round trip**: what `to_json` writes is parsed as it was. -/
theorem parseWorkerResultEvent_toJson (repr : Json → String) {e : WorkerResultEvent}
    {text : String} (h : e.toJson = .ok text) :
    parseWorkerResultEvent repr text.toUTF8 = .ok e := by
  unfold WorkerResultEvent.toJson at h
  cases hv : e.validate with
  | error err =>
      rw [hv] at h
      cases h
  | ok u =>
      rw [hv] at h
      cases h
      rw [parseWorkerResultEvent_render, eventOfDict_toDict]
      show (do e.validate; return e) = _
      rw [hv]
      rfl

/-- A parsed event has passed `validate`. -/
theorem parseWorkerResultEvent_valid {repr : Json → String} {data : ByteArray}
    {e : WorkerResultEvent} (h : parseWorkerResultEvent repr data = .ok e) : e.Valid := by
  unfold parseWorkerResultEvent at h
  split at h
  · cases h
  · split at h
    · cases h
    · rename_i payload _
      cases hevent : eventOfDict repr payload with
      | error err =>
          rw [hevent] at h
          cases h
      | ok e' =>
          rw [hevent] at h
          change (do e'.validate; return e') = _ at h
          cases hv : e'.validate with
          | error err =>
              rw [hv] at h
              cases h
          | ok u =>
              rw [hv] at h
              cases h
              exact WorkerResultEvent.validate_eq_ok_iff.mp hv
    · cases h

end KernelQ.ControlPlane
