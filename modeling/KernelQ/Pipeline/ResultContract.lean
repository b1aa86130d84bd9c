import KernelQ.ControlPlane.ResultEvent
import KernelQ.Pipeline.DispatchContract
import KernelQ.Worker.Handler

/-!
# From the worker to the control plane

What `ToJSON` writes for a result, and what `parse_worker_result_event` makes of
those bytes. The worker's event has no attempt, so the control plane reads the
default; and the two sides trim white space differently.
-/

namespace KernelQ.Pipeline

open KernelQ.Foundation KernelQ.ControlPlane
open Worker (DispatchEventHandler ExecutionResult newWorkerResultEvent)

/-! ## The wire -/

/-- The event the control plane reads, before its checks. -/
def reported (e : Worker.WorkerResultEvent) : WorkerResultEvent where
  eventType := e.eventType
  jobId := e.jobId
  status := e.status
  message := e.message
  worker := e.worker
  attempt := .int 0

theorem eventOfDict_members (repr : Json → String) (e : Worker.WorkerResultEvent) :
    eventOfDict repr e.members = .ok (reported e) := rfl

/-- **What the control plane reads** of the text the worker writes. -/
theorem parseWorkerResultEvent_toJSON (repr : Json → String) {e : Worker.WorkerResultEvent}
    {text : String} (h : e.toJSON = .ok text) :
    parseWorkerResultEvent repr text.toUTF8 =
      match (reported e).validate with
      | .ok () => .ok (reported e)
      | .error err => .error err := by
  obtain ⟨-, rfl⟩ := Worker.WorkerResultEvent.toJSON_eq_ok_iff.mp h
  rw [parseWorkerResultEvent_render, eventOfDict_members]
  show (do (reported e).validate; return reported e) = _
  cases (reported e).validate <;> rfl

/-! ## The contract -/

/-- The key of the result and the key of its execution differ in their stage
only: they name the same job and the same attempt. -/
def SameUnit (e : WorkerResultEvent) (event : Worker.DispatchEvent) : Prop :=
  ∃ unit : String,
    workerResultKey e.jobId e.attempt = .ok ("worker-result" ++ ":" ++ unit) ∧
      Worker.executionIdempotencyKey event.jobId event.attempt = .ok ("execution:" ++ unit)

structure SameResult (event : Worker.DispatchEvent) (result : ExecutionResult) (worker : String)
    (e : WorkerResultEvent) : Prop where
  jobId : e.jobId = event.jobId
  status : e.status = result.status
  message : e.message = result.message
  worker : e.worker = worker
  attempt : e.attempt.toInt = event.attempt
  unit : SameUnit e event

/-- The control plane accepts the event the worker publishes, and reads it as
the result of the dispatch event's job and attempt. -/
def Credited (repr : Json → String) (event : Worker.DispatchEvent) (result : ExecutionResult)
    (published : Worker.WorkerResultEvent) : Prop :=
  ∃ text, published.toJSON = .ok text ∧
    ∃ e, parseWorkerResultEvent repr text.toUTF8 = .ok e ∧
      SameResult event result published.worker e

variable {event : Worker.DispatchEvent} {result : ExecutionResult} {worker : String}

theorem unit_eq {stage unit job attempt : String}
    (h : stage ++ unit = stage ++ job ++ ":" ++ attempt) : unit = job ++ ":" ++ attempt := by
  have hlist := congrArg String.toList h
  simp only [String.toList_append, List.append_assoc, List.append_cancel_left_eq] at hlist
  exact String.toList_inj.mp (by simpa only [String.toList_append, List.append_assoc] using hlist)

theorem sameUnit_iff (hevent : event.Valid) {e : WorkerResultEvent} (he : e.jobId = event.jobId)
    (hattempt : e.attempt = .int 0) :
    SameUnit e event ↔ event.attempt = 0 ∧ strip event.jobId = Worker.trimSpace event.jobId := by
  have hexec := Worker.executionIdempotencyKey_eq_ok_iff.mpr ⟨hevent.jobId, hevent.attempt, rfl⟩
  rw [SameUnit, he, hattempt]
  constructor
  · rintro ⟨unit, hresult, hkey⟩
    rw [hexec] at hkey
    have hunit : unit = strip event.jobId ++ ":" ++ (PyInt.int 0).format :=
      unit_eq (attemptKey_eq_ok_iff.mp hresult).2.2
    have hunit' : unit = Worker.trimSpace event.jobId ++ ":" ++ (PyInt.int event.attempt).format :=
      unit_eq (Except.ok.inj hkey).symm
    -- the attempt stands behind the last colon
    obtain ⟨hjob, hformat⟩ := append_colon_inj (colon_not_mem_format _) (colon_not_mem_format _)
      (hunit.symm.trans hunit')
    exact ⟨(format_int_inj hformat).symm, hjob⟩
  · rintro ⟨hzero, hstrip⟩
    refine ⟨Worker.trimSpace event.jobId ++ ":" ++ (PyInt.int 0).format, ?_, ?_⟩
    · have hne : strip event.jobId ≠ "" := hstrip ▸ hevent.jobId
      refine attemptKey_eq_ok_iff.mpr ⟨hne, le_rfl, ?_⟩
      rw [hstrip]
      simp only [← String.append_assoc]
    · rw [hexec, hzero, PyInt.format]
      simp only [← String.append_assoc]

/-- An event with a name is encoded. -/
theorem toJSON_new (hevent : event.Valid) (hstatus : result.status ∈ Worker.resultStatuses)
    (hworker : Worker.trimSpace worker ≠ "") :
    ∃ text, (newWorkerResultEvent event.jobId result worker).toJSON = .ok text := by
  have hvalid : (newWorkerResultEvent event.jobId result worker).validate = .ok () :=
    Worker.WorkerResultEvent.validate_eq_ok_iff.mpr ⟨rfl, hevent.jobId, hstatus, hworker⟩
  exact ⟨_, Worker.WorkerResultEvent.toJSON_eq_ok_iff.mpr ⟨hvalid, rfl⟩⟩

theorem mem_allowedStatuses {status : String} (h : status ∈ Worker.resultStatuses) :
    status ∈ allowedStatuses := by
  have hsub : ∀ s ∈ Worker.resultStatuses, s ∈ allowedStatuses := by decide
  exact hsub status h

theorem credited_new_iff (repr : Json → String) (hevent : event.Valid)
    (hstatus : result.status ∈ Worker.resultStatuses) (hworker : Worker.trimSpace worker ≠ "") :
    Credited repr event result (newWorkerResultEvent event.jobId result worker) ↔
      event.attempt = 0 ∧ strip event.jobId = Worker.trimSpace event.jobId ∧
        strip worker ≠ "" := by
  obtain ⟨text, htext⟩ := toJSON_new hevent hstatus hworker
  have hwire := parseWorkerResultEvent_toJSON repr htext
  have hunit := sameUnit_iff hevent
    (e := reported (newWorkerResultEvent event.jobId result worker)) rfl rfl
  constructor
  · rintro ⟨text', htext', e, he, hsame⟩
    obtain rfl : text = text' := Except.ok.inj (htext.symm.trans htext')
    have hvalid := parseWorkerResultEvent_valid he
    rw [hwire] at he
    cases hv : (reported (newWorkerResultEvent event.jobId result worker)).validate with
    | error err =>
        rw [hv] at he
        cases he
    | ok u =>
        rw [hv] at he
        cases he
        obtain ⟨hattempt, hstrip⟩ := hunit.mp hsame.unit
        exact ⟨hattempt, hstrip, hvalid.worker⟩
  · rintro ⟨hattempt, hstrip, hblank⟩
    have hne : strip event.jobId ≠ "" := hstrip ▸ hevent.jobId
    have hvalid : (reported (newWorkerResultEvent event.jobId result worker)).Valid :=
      ⟨rfl, hne, mem_allowedStatuses hstatus, hblank, le_rfl⟩
    rw [WorkerResultEvent.validate_eq_ok_iff.mpr hvalid] at hwire
    exact ⟨text, htext, _, hwire, rfl, rfl, rfl, rfl, hattempt.symm,
      hunit.mpr ⟨hattempt, hstrip⟩⟩

/-- **When a result is credited to its execution**: for an event the worker
accepted and a result it publishes, exactly when the event has attempt 0, the
two languages strip its job id alike, and the worker's name is not blank in
Python. -/
theorem result_credited_iff {ω : Type} (handler : DispatchEventHandler ω) (repr : Json → String)
    {data : ByteArray} (hparse : Worker.parseDispatchEvent data = .ok event)
    (hstatus : result.status ∈ Worker.resultStatuses) :
    Credited repr event result (handler.resultEvent event result) ↔
      event.attempt = 0 ∧ strip event.jobId = Worker.trimSpace event.jobId ∧
        strip handler.resultWorker ≠ "" :=
  credited_new_iff repr (Worker.parseDispatchEvent_valid hparse) hstatus handler.resultWorker_ne

/-- A dispatch event of a second attempt, and a message it comes in. -/
def retriedEvent : Worker.DispatchEvent :=
  ⟨"job.dispatch", "job", "tenant", 1, "dispatched", some [], 1⟩

def retriedMembers : List (String × Json) :=
  [("event_type", .str "job.dispatch"), ("job_id", .str "job"), ("tenant_id", .str "tenant"),
    ("priority", .int 1), ("state", .str "dispatched"), ("payload", .obj []), ("attempt", .int 1)]

def retriedMessage : ByteArray :=
  (String.ofList ((Json.obj retriedMembers).render .go)).toUTF8

theorem parse_retriedMessage : Worker.parseDispatchEvent retriedMessage = .ok retriedEvent := by
  have hstore : (storeMembers Worker.DispatchEvent.fields {} retriedMembers).toOption =
      some retriedEvent := by decide +kernel
  have hvalid : retriedEvent.validate = .ok () :=
    Worker.DispatchEvent.validate_eq_ok_iff.mpr
      ⟨rfl, by decide +kernel, by decide +kernel, by decide, by decide, rfl⟩
  rw [Worker.parseDispatchEvent, retriedMessage, unmarshal_render]
  cases h : storeMembers Worker.DispatchEvent.fields {} retriedMembers with
  | error e =>
      rw [h] at hstore
      cases hstore
  | ok e =>
      rw [h] at hstore
      obtain rfl : e = retriedEvent := Option.some.inj hstore
      simp only [hvalid]

def success : ExecutionResult := ⟨Worker.executionSucceeded, ""⟩

/-- A handler that reports every task as done, to a broker that takes it. -/
def obligingHandler : DispatchEventHandler Unit where
  executor := some fun world _ => (world, .ok success)
  resultProducer := some (Worker.publishResult fun world _ _ => (world, none))
  workerName := Worker.workerIdentity

theorem result_credited_iff_retried :
    Credited (fun _ => "") retriedEvent success
        (obligingHandler.resultEvent retriedEvent success) ↔
      retriedEvent.attempt = 0 ∧ strip retriedEvent.jobId = Worker.trimSpace retriedEvent.jobId ∧
        strip obligingHandler.resultWorker ≠ "" :=
  result_credited_iff obligingHandler _ parse_retriedMessage (by decide)

/-- The result of a second attempt is read as one of attempt 0. -/
theorem retried_result_not_credited :
    Worker.parseDispatchEvent retriedMessage = .ok retriedEvent ∧
      ¬ Credited (fun _ => "") retriedEvent success
        (obligingHandler.resultEvent retriedEvent success) := by
  refine ⟨parse_retriedMessage, ?_⟩
  rintro ⟨text, htext, e, he, hsame⟩
  rw [parseWorkerResultEvent_toJSON _ htext] at he
  have hattempt := hsame.attempt
  split at he
  · cases he
    exact absurd hattempt (by decide)
  · cases he

end KernelQ.Pipeline
