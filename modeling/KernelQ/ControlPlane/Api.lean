import KernelQ.ControlPlane.JobRepository

/-!
# The mutating endpoints

`api.py`: enqueue, cancel and retry. Each reads the job, decides, and then
writes; the two halves are separate statements, so they are separate
definitions here, and the endpoint itself is the one after the other.
-/

namespace KernelQ.ControlPlane

open KernelQ.Foundation

/-- What the detail of an error response is made of. -/
inductive Detail
  | tenantIdBlank
  | alreadyExists (jobId : String)
  | notFound (jobId : String)
  | database (error : DbError)
  | unknownState (value : String)
  | transition (current target : JobState)
  deriving DecidableEq

structure HTTPException where
  statusCode : ℕ
  detail : Detail
  deriving DecidableEq

/-- A request body that has passed the model's field constraints. -/
structure EnqueueJobRequest where
  tenantId : String
  priority : ℕ
  payload : Option Payload
  maxRetries : Option ℕ
  tenantId_ne : tenantId ≠ ""

/-- The tenant of the scenarios. -/
theorem EnqueueJobRequest.tenant_ne : "tenant" ≠ "" := by decide

structure MessageResponse where
  message : String
  jobId : String
  state : String
  deriving DecidableEq

namespace Api

def parseState (stateValue : String) : Except HTTPException JobState :=
  match JobState.ofValue? stateValue with
  | some s => .ok s
  | none => .error ⟨500, .unknownState stateValue⟩

/-! ## Enqueue -/

def enqueueCheck (T : Jobs) (jobId : String) (body : EnqueueJobRequest) :
    Except HTTPException Unit :=
  if strip body.tenantId = "" then .error ⟨400, .tenantIdBlank⟩
  else
    match JobRepository.getJob T jobId with
    | some _ => .error ⟨409, .alreadyExists jobId⟩
    | none => .ok ()

def enqueueInsert (T : Jobs) (now : ℤ) (jobId : String) (body : EnqueueJobRequest) :
    Except HTTPException (Jobs × JobRecord) :=
  match JobRepository.createJob T now jobId body.tenantId body.priority JobState.queued.value
      (some (body.payload.getD .empty)) (body.maxRetries.getD 3) with
  | .ok r => .ok r
  | .error .uniqueViolation => .error ⟨409, .alreadyExists jobId⟩
  | .error e => .error ⟨500, .database e⟩

def enqueueJob (T : Jobs) (now : ℤ) (jobId : String) (body : EnqueueJobRequest) :
    Except HTTPException (Jobs × JobRecord) := do
  enqueueCheck T jobId body
  enqueueInsert T now jobId body

/-! ## Cancel and retry -/

/-- The first half of `cancel_job` and of `retry_job`. -/
def transitionCheck (T : Jobs) (jobId : String) (target : JobState) : Except HTTPException Unit :=
  match JobRepository.getJob T jobId with
  | none => .error ⟨404, .notFound jobId⟩
  | some record => do
      let current ← parseState record.state
      if canTransition current target then return ()
      else .error ⟨409, .transition current target⟩

/-- The second half: `update_job_state` has no guard. -/
def transitionWrite (T : Jobs) (now : ℤ) (jobId : String) (target : JobState) (message : String) :
    Jobs × Except HTTPException MessageResponse :=
  match JobRepository.updateJobState T now jobId target.value with
  | (T', none) => (T', .error ⟨404, .notFound jobId⟩)
  | (T', some updated) => (T', .ok ⟨message, updated.jobId, updated.state⟩)

/-- The two endpoints, which differ in their target and their message. -/
inductive Transition
  | cancel | retry
  deriving DecidableEq

namespace Transition

def target : Transition → JobState
  | cancel => .canceled
  | retry => .retryScheduled

def message : Transition → String
  | cancel => "Job canceled"
  | retry => "Job retried"

end Transition

def transitionJob (q : Transition) (T : Jobs) (now : ℤ) (jobId : String) :
    Jobs × Except HTTPException MessageResponse :=
  match transitionCheck T jobId q.target with
  | .error e => (T, .error e)
  | .ok () => transitionWrite T now jobId q.target q.message

def cancelJob (T : Jobs) (now : ℤ) (jobId : String) : Jobs × Except HTTPException MessageResponse :=
  transitionJob .cancel T now jobId

def retryJob (T : Jobs) (now : ℤ) (jobId : String) : Jobs × Except HTTPException MessageResponse :=
  transitionJob .retry T now jobId

/-! ## What the halves do to one row -/

variable {T T' : Jobs} {now : ℤ} {jobId : String} {target : JobState}

/-- The row allows the target, as `transitionCheck` decides it. -/
def Allows (target : JobState) (r : JobRow) : Prop :=
  ∃ s, JobState.ofValue? r.state = some s ∧ canTransition s target = true

instance (target : JobState) (r : JobRow) : Decidable (Allows target r) :=
  match h : JobState.ofValue? r.state with
  | none => isFalse (by rintro ⟨s, hs, -⟩; rw [h] at hs; cases hs)
  | some s =>
      if hc : canTransition s target = true then isTrue ⟨s, h, hc⟩
      else isFalse (by
        rintro ⟨s', hs', hc'⟩
        rw [h] at hs'
        cases hs'
        exact hc hc')

theorem transitionCheck_ok_iff :
    transitionCheck T jobId target = .ok () ↔ ∃ r, T.find? jobId = some r ∧ Allows target r := by
  unfold transitionCheck JobRepository.getJob
  cases hfind : T.find? jobId with
  | none => simp
  | some r =>
      simp only [Option.map_some, rowToRecord, parseState, Option.some.injEq, exists_eq_left',
        Allows]
      cases hs : JobState.ofValue? r.state with
      | none => simp [bind, Except.bind]
      | some s =>
          by_cases hc : canTransition s target = true <;>
            simp [bind, Except.bind, pure, Except.pure, hc]

theorem find?_transitionWrite (T : Jobs) (now : ℤ) (jobId : String) (target : JobState)
    (message k : String) : (transitionWrite T now jobId target message).1.find? k =
      if k = jobId then (T.find? k).map (setState target.value now).set else T.find? k := by
  have hrow := JobRepository.find?_updateRow T jobId (fun _ => true) (setState target.value now) k
  simp only [if_true] at hrow
  rw [← hrow]
  unfold transitionWrite JobRepository.updateJobState
  split <;> rename_i heq <;>
    · rw [← (Prod.mk.inj heq).1]
      rfl

/-- The request answers 200 exactly when the row is there. -/
theorem transitionWrite_ok_iff (T : Jobs) (now : ℤ) (jobId : String) (target : JobState)
    (message : String) :
    (∃ response, (transitionWrite T now jobId target message).2 = .ok response) ↔
      ∃ r, T.find? jobId = some r := by
  unfold transitionWrite JobRepository.updateJobState
  simp only [JobRepository.snd_updateRow]
  cases hfind : T.find? jobId with
  | none => simp
  | some r =>
      simp only [Option.some.injEq, exists_eq', iff_true]
      exact ⟨_, rfl⟩

theorem enqueueInsert_eq_ok {body : EnqueueJobRequest} {job : JobRecord}
    (h : enqueueInsert T now jobId body = .ok (T', job)) :
    ∃ r, r.jobId = jobId ∧ r.tenantId = body.tenantId ∧
      JobRepository.Created JobState.queued.value r ∧ T.find? jobId = none ∧
        ∀ k, T'.find? k = if jobId = k then some r else T.find? k := by
  unfold enqueueInsert at h
  split at h
  · rename_i hcreate
    cases h
    exact JobRepository.createJob_eq_ok hcreate
  · cases h
  · cases h

/-- What `enqueue_job` has checked, and what it returns. -/
theorem enqueueJob_eq_ok {body : EnqueueJobRequest} {job : JobRecord}
    (h : enqueueJob T now jobId body = .ok (T', job)) :
    strip body.tenantId ≠ "" ∧ job.tenantId = body.tenantId ∧ job.priority = body.priority ∧
      job.payload = body.payload.getD .empty := by
  unfold enqueueJob at h
  cases hcheck : enqueueCheck T jobId body with
  | error e =>
      rw [hcheck] at h
      cases h
  | ok u =>
      rw [hcheck] at h
      change enqueueInsert T now jobId body = _ at h
      have htenant : strip body.tenantId ≠ "" := by
        intro hblank
        rw [enqueueCheck, if_pos hblank] at hcheck
        cases hcheck
      unfold enqueueInsert at h
      split at h
      · rename_i hcreate
        cases h
        obtain ⟨htenantId, hpriority, hpayload⟩ := JobRepository.createJob_record hcreate
        exact ⟨htenant, htenantId, Int.ofNat_inj.mp hpriority, hpayload⟩
      · cases h
      · cases h

end Api

end KernelQ.ControlPlane
