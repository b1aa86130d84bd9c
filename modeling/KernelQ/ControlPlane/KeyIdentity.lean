import KernelQ.ControlPlane.Api
import KernelQ.ControlPlane.ResultEvent

/-!
# What a key identifies

The three key builders over all units of work that can reach them. The job id comes
from `enqueue_job` or out of a parsed result event, the attempt out of such an event
or from the row's `retry_count`. A key has the id as stripped and the attempt as
printed, while the table has the id as it came, and `True` is the number 1.
-/

namespace KernelQ.ControlPlane

open KernelQ.Foundation

variable {repr : Json → String}

inductive KeyStage
  | workerResult | dispatch | execution
  deriving DecidableEq

namespace KeyStage

def key : KeyStage → String → PyInt → Except PyException String
  | workerResult => workerResultKey
  | dispatch => dispatchKey
  | execution => executionKey

def segment : KeyStage → String
  | workerResult => "worker-result"
  | dispatch => "dispatch"
  | execution => "execution"

theorem key_eq (stage : KeyStage) : stage.key = attemptKey stage.segment := by
  cases stage <;> rfl

theorem colon_not_mem_segment (stage : KeyStage) : ':' ∉ stage.segment.toList := by
  cases stage <;> decide

theorem segment_inj {stage stage' : KeyStage} (h : stage.segment = stage'.segment) :
    stage = stage' := by
  revert h
  cases stage <;> cases stage' <;> decide

end KeyStage

/-- Where a job id comes from. -/
inductive Introduced (repr : Json → String) : String → Prop
  | enqueued {T T' : Jobs} {now : ℤ} {jobId : String} {body : EnqueueJobRequest} {job : JobRecord}
      (hpath : jobId ≠ "") (h : Api.enqueueJob T now jobId body = .ok (T', job)) :
      Introduced repr jobId
  | parsed {data : ByteArray} {e : WorkerResultEvent}
      (h : parseWorkerResultEvent repr data = .ok e) : Introduced repr e.jobId

/-- Where an attempt comes from. -/
inductive Counted (repr : Json → String) : PyInt → Prop
  | row (r : JobRow) : Counted repr (.int r.retryCount)
  | parsed {data : ByteArray} {e : WorkerResultEvent}
      (h : parseWorkerResultEvent repr data = .ok e) : Counted repr e.attempt

/-- What one key is to stand for. -/
structure WorkUnit (repr : Json → String) where
  stage : KeyStage
  jobId : String
  attempt : PyInt
  introduced : Introduced repr jobId
  not_blank : strip jobId ≠ ""
  counted : Counted repr attempt

namespace WorkUnit

def key (u : WorkUnit repr) : Except PyException String := u.stage.key u.jobId u.attempt

/-- The two units are one: the job as the table has it, the attempt as a number. -/
def Same (u v : WorkUnit repr) : Prop :=
  u.stage = v.stage ∧ u.jobId = v.jobId ∧ u.attempt.toInt = v.attempt.toInt

/-- Both have a key, and it is one key exactly if they are one unit. -/
def Identified (u v : WorkUnit repr) : Prop :=
  ∃ k k', u.key = .ok k ∧ v.key = .ok k' ∧ (k = k' ↔ u.Same v)

end WorkUnit

/-- Two job ids, apart in the white space around them only. -/
def PaddingApart (jobId jobId' : String) : Prop :=
  jobId ≠ jobId' ∧ strip jobId = strip jobId'

/-- `True` beside 1, or `False` beside 0. -/
def BoolBeside (a a' : PyInt) : Prop :=
  a ≠ a' ∧ a.toInt = a'.toInt

theorem Counted.nonneg {a : PyInt} (h : Counted repr a) : 0 ≤ a.toInt := by
  cases h with
  | row r => exact Int.natCast_nonneg r.retryCount
  | parsed h => exact (parseWorkerResultEvent_valid h).attempt

/-- Any id that is not blank can come in a result event, and any attempt that is not
negative. -/
theorem parsed_of_valid (repr : Json → String) {jobId : String} {a : PyInt}
    (hjob : strip jobId ≠ "") (ha : 0 ≤ a.toInt) :
    Introduced repr jobId ∧ Counted repr a := by
  have hvalid : WorkerResultEvent.Valid
      { eventType := workerResultEventType, jobId, status := "succeeded", message := ""
        worker := "worker", attempt := a } :=
    ⟨rfl, hjob, List.mem_of_elem_eq_true rfl, show strip "worker" ≠ "" by decide +kernel, ha⟩
  have hparsed := parseWorkerResultEvent_toJson repr (WorkerResultEvent.toJson_of_valid hvalid)
  exact ⟨.parsed hparsed, .parsed hparsed⟩

namespace WorkUnit

variable (u v : WorkUnit repr)

theorem key_eq_ok : u.key =
    .ok (u.stage.segment ++ ":" ++ strip u.jobId ++ ":" ++ u.attempt.format) := by
  show u.stage.key u.jobId u.attempt = _
  rw [u.stage.key_eq]
  exact attemptKey_eq_ok_iff.mpr ⟨u.not_blank, u.counted.nonneg, rfl⟩

/-- What a key keeps of its unit. -/
theorem key_eq_key_iff : u.key = v.key ↔
    u.stage = v.stage ∧ strip u.jobId = strip v.jobId ∧ u.attempt = v.attempt := by
  rw [u.key_eq_ok, v.key_eq_ok, Except.ok.injEq]
  constructor
  · intro h
    -- the id may hold colons itself: the attempt is what follows the last one, the
    -- segment what precedes the first
    obtain ⟨hunit, hattempt⟩ :=
      append_colon_inj (colon_not_mem_format u.attempt) (colon_not_mem_format v.attempt) h
    obtain ⟨hstage, hjob⟩ :=
      colon_append_inj u.stage.colon_not_mem_segment v.stage.colon_not_mem_segment hunit
    exact ⟨KeyStage.segment_inj hstage, hjob, format_inj hattempt⟩
  · rintro ⟨hstage, hjob, hattempt⟩
    rw [hstage, hjob, hattempt]

theorem identified_iff_key : u.Identified v ↔ (u.key = v.key ↔ u.Same v) := by
  constructor
  · rintro ⟨k, k', hk, hk', h⟩
    rw [hk, hk', Except.ok.injEq]
    exact h
  · intro h
    refine ⟨_, _, u.key_eq_ok, v.key_eq_ok, ?_⟩
    rw [u.key_eq_ok, v.key_eq_ok, Except.ok.injEq] at h
    exact h

end WorkUnit

/-- **When a key identifies its unit**: the two are of different stages; or neither are
their ids apart in padding only, with one attempt, nor is there a `bool` beside its
number, with one id. -/
theorem keys_identify_iff (repr : Json → String) (u v : WorkUnit repr) :
    u.Identified v ↔ (u.stage = v.stage →
      ¬ (PaddingApart u.jobId v.jobId ∧ u.attempt = v.attempt) ∧
        ¬ (u.jobId = v.jobId ∧ BoolBeside u.attempt v.attempt)) := by
  rw [u.identified_iff_key v, u.key_eq_key_iff v]
  constructor
  · intro h hstage
    constructor
    · rintro ⟨⟨hne, hstrip⟩, hattempt⟩
      obtain ⟨-, hjob, -⟩ := h.mp ⟨hstage, hstrip, hattempt⟩
      exact hne hjob
    · rintro ⟨hjob, hne, htoInt⟩
      obtain ⟨-, -, hattempt⟩ := h.mpr ⟨hstage, hjob, htoInt⟩
      exact hne hattempt
  · intro h
    constructor
    · rintro ⟨hstage, hstrip, hattempt⟩
      refine ⟨hstage, ?_, congrArg PyInt.toInt hattempt⟩
      by_contra hne
      exact (h hstage).1 ⟨⟨hne, hstrip⟩, hattempt⟩
    · rintro ⟨hstage, hjob, htoInt⟩
      refine ⟨hstage, congrArg strip hjob, ?_⟩
      by_contra hne
      exact (h hstage).2 ⟨hjob, hne, htoInt⟩

theorem introduced_of_isSome {jobId : String} {body : EnqueueJobRequest}
    (h : (Api.enqueueJob .empty 0 jobId body).toOption.isSome = true) (hpath : jobId ≠ "") :
    Introduced repr jobId := by
  cases henqueue : Api.enqueueJob .empty 0 jobId body with
  | error e =>
      rw [henqueue] at h
      cases h
  | ok r => exact .enqueued hpath henqueue

/-- Two jobs share their first dispatch key; and one result, its attempt once a `bool`, has
two. -/
theorem padded_jobs_share_key : ∃ u v w w' : WorkUnit fun _ => "",
    (u.jobId = "job" ∧ v.jobId = " job" ∧ u.attempt = .int 0 ∧ v.attempt = .int 0 ∧
      u.key = .ok "dispatch:job:0" ∧ v.key = .ok "dispatch:job:0" ∧ ¬ u.Identified v) ∧
    (w.jobId = "job" ∧ w'.jobId = "job" ∧ w.attempt = .int 1 ∧ w'.attempt = .bool true ∧
      w.key = .ok "worker-result:job:1" ∧ w'.key = .ok "worker-result:job:True" ∧
        ¬ w.Identified w') := by
  let body : EnqueueJobRequest := ⟨"tenant", 1, none, none, EnqueueJobRequest.tenant_ne⟩
  have hjob : Introduced (fun _ => "") "job" :=
    introduced_of_isSome (show (Api.enqueueJob .empty 0 "job" body).toOption.isSome = true by
      decide +kernel) (by decide)
  have hpadded : Introduced (fun _ => "") " job" :=
    introduced_of_isSome (show (Api.enqueueJob .empty 0 " job" body).toOption.isSome = true by
      decide +kernel) (by decide)
  have hne : strip "job" ≠ "" := by decide +kernel
  have hne' : strip " job" ≠ "" := by decide +kernel
  have hcounted : ∀ a : PyInt, 0 ≤ a.toInt → Counted (fun _ => "") a :=
    fun a ha => (parsed_of_valid _ hne ha).2
  let unit (stage : KeyStage) (a : PyInt) (ha : 0 ≤ a.toInt) : WorkUnit fun _ => "" :=
    ⟨stage, "job", a, hjob, hne, hcounted a ha⟩
  have hkey : dispatchKey "job" (.int 0) = .ok "dispatch:job:0" := by decide +kernel
  have hkey' : dispatchKey " job" (.int 0) = .ok "dispatch:job:0" := by decide +kernel
  have hint : workerResultKey "job" (.int 1) = .ok "worker-result:job:1" := by decide +kernel
  have hbool : workerResultKey "job" (.bool true) = .ok "worker-result:job:True" := by
    decide +kernel
  refine ⟨unit .dispatch (.int 0) (by decide),
    ⟨.dispatch, " job", .int 0, hpadded, hne', hcounted _ (by decide)⟩,
    unit .workerResult (.int 1) (by decide), unit .workerResult (.bool true) (by decide),
    ⟨rfl, rfl, rfl, rfl, hkey, hkey', ?_⟩, ⟨rfl, rfl, rfl, rfl, hint, hbool, ?_⟩⟩
  · rw [WorkUnit.identified_iff_key]
    intro h
    obtain ⟨-, hids, -⟩ := h.mp (hkey.trans hkey'.symm)
    exact absurd (show "job" = " job" from hids) (by decide)
  · rw [WorkUnit.identified_iff_key]
    intro h
    have hkeys := hint.symm.trans ((h.mpr ⟨rfl, rfl, rfl⟩).trans hbool)
    exact absurd (Except.ok.inj hkeys) (by decide)

end KernelQ.ControlPlane
