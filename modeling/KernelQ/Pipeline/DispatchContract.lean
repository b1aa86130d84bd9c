import KernelQ.ControlPlane.Api
import KernelQ.ControlPlane.SchedulerTick
import KernelQ.ControlPlane.System
import KernelQ.Worker.DispatchEvent
import Mathlib.Data.Set.List

/-!
# From the scheduler to the worker

What `to_json` writes for a claimed row, and what `ParseDispatchEvent` makes of
those bytes. The two classes of the event differ in two fields: the worker's
payload is a `map[string]string`, and only the worker's has an `attempt`.
-/

namespace KernelQ.Pipeline

open KernelQ.Foundation KernelQ.ControlPlane

/-! ## The wire -/

/-- The event the worker reads, once the payload is read as `m`. -/
def received (job : JobRecord) (m : StringMap) : Worker.DispatchEvent where
  eventType := "job.dispatch"
  jobId := job.jobId
  tenantId := job.tenantId
  priority := job.priority
  state := job.state
  payload := some m
  attempt := 0

section

open Worker.DispatchEvent

theorem storeMembers_toDict {job : JobRecord} (hpriority : job.priority < 2 ^ 31) :
    storeMembers fields {} (DispatchEvent.ofJob job).toDict =
      (storeEntries "payload" [] job.payload.fields).map (received job) := by
  have hlow : -2 ^ 63 ≤ (job.priority : ℤ) := by omega
  have hhigh : (job.priority : ℤ) < 2 ^ 63 := by omega
  have h₁ : findField fields "event_type" =
    some (.string "event_type" eventType fun e s => { e with eventType := s }) := rfl
  have h₂ : findField fields "job_id" =
    some (.string "job_id" jobId fun e s => { e with jobId := s }) := rfl
  have h₃ : findField fields "tenant_id" =
    some (.string "tenant_id" tenantId fun e s => { e with tenantId := s }) := rfl
  have h₄ : findField fields "priority" =
    some (.int "priority" priority fun e i => { e with priority := i }) := rfl
  have h₅ : findField fields "state" =
    some (.string "state" state fun e s => { e with state := s }) := rfl
  have h₆ : findField fields "payload" =
    some (.stringMap "payload" payload fun e m => { e with payload := m }) := rfl
  rw [DispatchEvent.toDict, DispatchEvent.ofJob,
    storeMembers_cons h₁ (StructField.store_string _ _ _ _ _),
    storeMembers_cons h₂ (StructField.store_string _ _ _ _ _),
    storeMembers_cons h₃ (StructField.store_string _ _ _ _ _),
    storeMembers_cons h₄ (StructField.store_int _ _ _ _ hlow hhigh),
    storeMembers_cons h₅ (StructField.store_string _ _ _ _ _)]
  simp only [storeMembers, h₆, StructField.store_stringMap, Option.getD_none]
  cases storeEntries "payload" [] job.payload.fields <;> rfl

end

/-- Go's spaces are spaces in Python. -/
theorem isspace_of_isSpace (c : Char) (h : Worker.isSpace c = true) : isspace c = true := by
  simp only [Worker.isSpace, isspace, decide_eq_true_eq, List.mem_cons, List.not_mem_nil,
    or_false] at h ⊢
  omega

/-- What is not blank in Python is not blank in Go. -/
theorem trimSpace_ne {s : String} (h : strip s ≠ "") : Worker.trimSpace s ≠ "" :=
  fun hblank => h (trim_eq_empty_of_le isspace_of_isSpace hblank)

theorem valid_received {job : JobRecord} (hjob : strip job.jobId ≠ "")
    (htenant : strip job.tenantId ≠ "") (hstate : job.state = JobState.dispatched.value)
    (m : StringMap) : (received job m).Valid where
  eventType := rfl
  jobId := trimSpace_ne hjob
  tenantId := trimSpace_ne htenant
  priority := Int.natCast_nonneg _
  attempt := le_rfl
  state := hstate

/-- **What the worker reads** of the event of a claimed job. -/
theorem parseDispatchEvent_ofJob (job : JobRecord) (hjob : strip job.jobId ≠ "")
    (htenant : strip job.tenantId ≠ "") (hstate : job.state = JobState.dispatched.value)
    (hpriority : job.priority < 2 ^ 31) :
    Worker.parseDispatchEvent (DispatchEvent.ofJob job).toJson.toUTF8 =
      match storeEntries "payload" [] job.payload.fields with
      | .ok m => .ok (received job m)
      | .error e => .error (.unmarshal e) := by
  rw [Worker.parseDispatchEvent, DispatchEvent.toJson, unmarshal_render,
    storeMembers_toDict hpriority]
  cases storeEntries "payload" [] job.payload.fields with
  | error e => rfl
  | ok m =>
      have hvalid := Worker.DispatchEvent.validate_eq_ok_iff.mpr
        (valid_received hjob htenant hstate m)
      simp only [Except.map, hvalid]

/-! ## The contract -/

/-- The row of a job that the enqueue endpoint has created and a tick has
claimed; its `retry_count` is whatever it has become. -/
structure ClaimedRow (r : JobRow) : Prop where
  enqueued : ∃ T T' now body created, Api.enqueueJob T now r.jobId body = .ok (T', created) ∧
    created.tenantId = r.tenantId ∧ created.priority = r.priority ∧ created.payload = r.payload
  notBlank : strip r.jobId ≠ ""
  state : r.state = JobState.dispatched.value

/-- The map holds the payload's entries, all of them strings. -/
def SamePayload (m : Option StringMap) (payload : Payload) : Prop :=
  ∃ entries : StringMap, m = some entries ∧
    payload.fields = entries.map fun e => (e.1, Json.str e.2)

structure SameEvent (job : JobRecord) (e : Worker.DispatchEvent) : Prop where
  jobId : e.jobId = job.jobId
  tenantId : e.tenantId = job.tenantId
  priority : e.priority = job.priority
  payload : SamePayload e.payload job.payload
  attempt : e.attempt = job.retryCount

/-- The worker accepts the event of the job, and reads it as it was. -/
def Arrives (job : JobRecord) : Prop :=
  ∃ e, Worker.parseDispatchEvent (DispatchEvent.ofJob job).toJson.toUTF8 = .ok e ∧ SameEvent job e

def AllStrings (payload : Payload) : Prop := ∀ member ∈ payload.fields, ∃ s, member.2 = .str s

theorem allStrings_iff {payload : Payload} : AllStrings payload ↔
    ∃ entries : StringMap, payload.fields = entries.map fun e => (e.1, Json.str e.2) := by
  constructor
  · intro h
    have hrange : payload.fields ∈
        Set.range (List.map fun e : String × String => (e.1, Json.str e.2)) := by
      rw [Set.range_list_map]
      intro member hmember
      obtain ⟨s, hs⟩ := h member hmember
      exact ⟨(member.1, s), Prod.ext rfl hs.symm⟩
    obtain ⟨entries, hentries⟩ := hrange
    exact ⟨entries, hentries.symm⟩
  · rintro ⟨entries, h⟩ member hmember
    rw [h] at hmember
    obtain ⟨e, -, rfl⟩ := List.mem_map.mp hmember
    exact ⟨e.2, rfl⟩

theorem tenantId_ne {r : JobRow} (hr : ClaimedRow r) : strip r.tenantId ≠ "" := by
  obtain ⟨T, T', now, body, created, henqueue, htenant, -⟩ := hr.enqueued
  obtain ⟨hne, heq, -⟩ := Api.enqueueJob_eq_ok henqueue
  rwa [← htenant, heq]

/-- **When a dispatch event arrives as it was sent**: for a claimed row of the
enqueue endpoint, exactly when the row is in its first attempt and all values of
its payload are strings. -/
theorem dispatch_arrives_iff (r : JobRow) (hr : ClaimedRow r) :
    Arrives (rowToRecord r) ↔ r.retryCount = 0 ∧ AllStrings r.payload := by
  have hparse := parseDispatchEvent_ofJob (rowToRecord r) hr.notBlank (tenantId_ne hr) hr.state
    r.priority_lt
  have hnodup : ((([] : StringMap).map Prod.fst) ++
      (rowToRecord r).payload.fields.map Prod.fst).Nodup := r.payload.nodup
  rw [allStrings_iff]
  constructor
  · rintro ⟨e, he, hsame⟩
    rw [hparse] at he
    cases hstore : storeEntries "payload" [] (rowToRecord r).payload.fields with
    | error err =>
        rw [hstore] at he
        cases he
    | ok m =>
        rw [hstore] at he
        cases he
        obtain ⟨entries, -, hentries⟩ := hsame.payload
        exact ⟨Int.ofNat_eq_zero.mp hsame.attempt.symm, entries, hentries⟩
  · rintro ⟨hcount, entries, hentries⟩
    have hstore : storeEntries "payload" [] (rowToRecord r).payload.fields = .ok entries := by
      refine (storeEntries_eq_ok_iff hnodup).mpr ⟨entries, ?_, rfl⟩
      show r.payload.fields.map entryOf = _
      rw [hentries, List.map_map]
      rfl
    rw [hstore] at hparse
    exact ⟨_, hparse, rfl, rfl, rfl, ⟨entries, rfl, hentries⟩, by
      show (0 : ℤ) = r.retryCount
      rw [hcount]
      rfl⟩

/-- A job with an empty payload that was claimed again after a failure. -/
def retriedRow : JobRow where
  jobId := "job"
  tenantId := "tenant"
  priority := 1
  state := JobState.dispatched.value
  payload := .empty
  retryCount := 1
  maxRetries := 3
  createdAt := 10
  updatedAt := 120
  dispatchedAt := some 20
  retryAfter := some 100
  priority_lt := by decide
  retryCount_lt := by decide
  maxRetries_lt := by decide

theorem claimedRow_retriedRow : ClaimedRow retriedRow where
  enqueued := by
    have hok : (Api.enqueueJob .empty 10 "job" Scenario.body).toOption.isSome = true := by
      decide +kernel
    cases h : Api.enqueueJob .empty 10 "job" Scenario.body with
    | error e =>
        rw [h] at hok
        cases hok
    | ok r =>
        obtain ⟨T', created⟩ := r
        obtain ⟨-, htenant, hpriority, hpayload⟩ := Api.enqueueJob_eq_ok h
        exact ⟨.empty, T', 10, Scenario.body, created, h, htenant, hpriority, hpayload⟩
  notBlank := by decide +kernel
  state := rfl

theorem dispatch_arrives_iff_retried :
    Arrives (rowToRecord retriedRow) ↔ retriedRow.retryCount = 0 ∧ AllStrings retriedRow.payload :=
  dispatch_arrives_iff retriedRow claimedRow_retriedRow

/-- The worker reads attempt 0 for a row in its second attempt. -/
theorem retried_event_changes : ClaimedRow retriedRow ∧ ¬ Arrives (rowToRecord retriedRow) := by
  refine ⟨claimedRow_retriedRow, ?_⟩
  rintro ⟨e, he, hsame⟩
  rw [parseDispatchEvent_ofJob (rowToRecord retriedRow) claimedRow_retriedRow.notBlank
    (tenantId_ne claimedRow_retriedRow) rfl retriedRow.priority_lt] at he
  cases he
  have hattempt := hsame.attempt
  simp [received, rowToRecord, retriedRow] at hattempt

end KernelQ.Pipeline
