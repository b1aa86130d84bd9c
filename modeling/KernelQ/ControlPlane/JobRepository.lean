import KernelQ.Foundation.KeyedTable
import KernelQ.Foundation.OrderedSelection
import KernelQ.Foundation.Json
import KernelQ.ControlPlane.JobState
import KernelQ.ControlPlane.IdempotencyKeys

/-!
# The jobs table and its repository

`job_repository.py` and the migrations: the columns of `jobs` with their checks
and ranges, and one definition per repository method, as the statement it sends.
`now` is the statement's `NOW()`, `clock` is `int(time.time())` of the caller.
What a statement leaves to Postgres (rows other transactions hold locked, the
order of ties, the order of `RETURNING`) is an `Executor`.
-/

namespace KernelQ.ControlPlane

open KernelQ.Foundation

/-- A JSON object as a `dict`: one value per key. -/
structure Payload where
  fields : List (String × Json)
  nodup : (fields.map Prod.fst).Nodup

def Payload.empty : Payload := ⟨[], List.nodup_nil⟩

/-- A row of `jobs`; the ranges are those of `INTEGER CHECK (… >= 0)`. -/
structure JobRow where
  jobId : String
  tenantId : String
  priority : ℕ
  state : String
  payload : Payload
  retryCount : ℕ
  maxRetries : ℕ
  createdAt : ℤ
  updatedAt : ℤ
  dispatchedAt : Option ℤ
  retryAfter : Option ℤ
  priority_lt : priority < 2 ^ 31
  retryCount_lt : retryCount < 2 ^ 31
  maxRetries_lt : maxRetries < 2 ^ 31

abbrev Jobs := KeyedTable JobRow.jobId

/-- The columns `_JOB_ROW_COLUMNS` lists: all but `retry_after`. -/
structure JobRecord where
  jobId : String
  tenantId : String
  priority : ℕ
  state : String
  payload : Payload
  retryCount : ℕ
  maxRetries : ℕ
  createdAt : ℤ
  updatedAt : ℤ
  dispatchedAt : Option ℤ

def rowToRecord (r : JobRow) : JobRecord where
  jobId := r.jobId
  tenantId := r.tenantId
  priority := r.priority
  state := r.state
  payload := r.payload
  retryCount := r.retryCount
  maxRetries := r.maxRetries
  createdAt := r.createdAt
  updatedAt := r.updatedAt
  dispatchedAt := r.dispatchedAt

/-- Why Postgres refuses a row. -/
inductive DbError
  | nulCharacter | integerOutOfRange | checkViolation | uniqueViolation
  deriving DecidableEq

/-- What a statement leaves to Postgres. -/
structure Executor where
  locked : String → Bool
  rank : JobRow → ℕ
  returning : List JobRow → List JobRow
  returning_perm : ∀ l, (returning l).Perm l

/-- Nothing locked, ties and `RETURNING` in table order. -/
def Executor.quiet : Executor := ⟨fun _ => false, fun _ => 0, id, fun l => List.Perm.refl l⟩

/-! ## `SET` clauses -/

abbrev JobUpdate := SetClause JobRow.jobId

/-- `state = …, updated_at = NOW()`. -/
def setState (newState : String) (now : ℤ) : JobUpdate where
  set r := { r with state := newState, updatedAt := now }
  key_set _ := rfl

/-- `state = 'dispatched', updated_at = NOW()` and `_SET_FIRST_DISPATCHED_AT`. -/
def setDispatched (now : ℤ) : JobUpdate where
  set r :=
    { r with
      state := JobState.dispatched.value
      updatedAt := now
      dispatchedAt := r.dispatchedAt.or (some now) }
  key_set _ := rfl

def setRetryPolicy (retryAfter now : ℤ) : JobUpdate where
  set r :=
    { r with
      retryCount := if r.retryCount < r.maxRetries then r.retryCount + 1 else r.retryCount
      state :=
        if r.retryCount < r.maxRetries then JobState.retryScheduled.value
        else JobState.deadLettered.value
      retryAfter := if r.retryCount < r.maxRetries then some retryAfter else r.retryAfter
      updatedAt := now
      retryCount_lt := by
        have h := r.maxRetries_lt
        have h' := r.retryCount_lt
        split <;> omega }
  key_set _ := rfl

/-- `state = 'queued', retry_after = NULL, updated_at = NOW()`. -/
def setRequeued (now : ℤ) : JobUpdate where
  set r := { r with state := JobState.queued.value, retryAfter := none, updatedAt := now }
  key_set _ := rfl

/-! ## Orders -/

/-- `ORDER BY priority DESC, created_at ASC`. -/
def claimOrder : SortKey JobRow :=
  .lexicographic (fun r => -(r.priority : ℤ)) (fun r => r.createdAt)

/-- `key=lambda job: (-job.priority, job.created_at)`. -/
def recordOrder : SortKey JobRecord :=
  .lexicographic (fun job => -(job.priority : ℤ)) (fun job => job.createdAt)

/-- `ORDER BY retry_after ASC, created_at ASC`; the rows it sorts have a `retry_after`. -/
def dueOrder : SortKey JobRow :=
  .lexicographic (fun r => r.retryAfter.getD 0) (fun r => r.createdAt)

namespace JobRepository

/-! ## Methods -/

def defaultRetryDelaySeconds : ℤ := 60

def createJob (T : Jobs) (now : ℤ) (jobId tenantId : String) (priority : ℤ) (state : String)
    (payload : Option Payload) (maxRetries : ℤ) : Except DbError (Jobs × JobRecord) :=
  if '\x00' ∈ jobId.toList ∨ '\x00' ∈ tenantId.toList ∨ '\x00' ∈ state.toList then
    .error .nulCharacter
  else if hrange : priority < 2 ^ 31 ∧ -2 ^ 31 ≤ priority ∧ maxRetries < 2 ^ 31 ∧
      -2 ^ 31 ≤ maxRetries then
    if 0 ≤ priority ∧ 0 ≤ maxRetries then
      let row : JobRow :=
        { jobId, tenantId, state
          priority := priority.toNat
          payload := payload.getD .empty
          retryCount := 0
          maxRetries := maxRetries.toNat
          createdAt := now
          updatedAt := now
          dispatchedAt := none
          retryAfter := none
          priority_lt := by omega
          retryCount_lt := by omega
          maxRetries_lt := by omega }
      match T.insert? row with
      | some T' => .ok (T', rowToRecord row)
      | none => .error .uniqueViolation
    else .error .checkViolation
  else .error .integerOutOfRange

def getJob (T : Jobs) (jobId : String) : Option JobRecord :=
  (T.find? jobId).map rowToRecord

/-- `UPDATE … WHERE job_id = …`, guarded by `q`: the table, and the row returned if any. -/
def updateRow (T : Jobs) (jobId : String) (q : JobRow → Bool) (u : JobUpdate) :
    Jobs × Option JobRow :=
  (T.update (fun r => decide (r.jobId = jobId) && q r) u,
    (T.affected (fun r => decide (r.jobId = jobId) && q r) u).head?)

def updateJobState (T : Jobs) (now : ℤ) (jobId newState : String) : Jobs × Option JobRecord :=
  let (T', row) := updateRow T jobId (fun _ => true) (setState newState now)
  (T', row.map rowToRecord)

def updateJobStateFromWorkerResult (T : Jobs) (now : ℤ) (jobId newState : String) : Jobs × Bool :=
  let (T', row) := updateRow T jobId (fun _ => true) (setState newState now)
  (T', row.isSome)

structure ScheduleRetryResult where
  outcome : String
  jobId : String
  state : String
  retryCount : ℕ
  maxRetries : ℕ
  retryAfter : Option ℤ

def scheduleRetryFromWorkerResult (T : Jobs) (now clock : ℤ) (jobId : String)
    (retryDelaySeconds : ℤ) : Jobs × Option ScheduleRetryResult :=
  let retryAfter := clock + retryDelaySeconds
  let (T', row) := updateRow T jobId (fun _ => true) (setRetryPolicy retryAfter now)
  (T', row.map fun r =>
    { outcome := if r.state = JobState.retryScheduled.value then "scheduled" else "exhausted"
      jobId := r.jobId
      state := r.state
      retryCount := r.retryCount
      maxRetries := r.maxRetries
      retryAfter := r.retryAfter })

/-- `state = 'retry_scheduled' AND retry_after <= now`; a `NULL` is not due. -/
def isDue (now : ℤ) (r : JobRow) : Bool :=
  decide (r.state = JobState.retryScheduled.value) && r.retryAfter.any (fun τ => decide (τ ≤ now))

/-- The subquery of `requeue_due_retries`: `FOR UPDATE SKIP LOCKED` under the limit. -/
def dueRows (T : Jobs) (E : Executor) (now : ℤ) (limit : ℕ) : List JobRow :=
  dueOrder.selectTop E.rank limit (T.rows.filter fun r => isDue now r && !E.locked r.jobId)

def requeueDueRetries (T : Jobs) (E : Executor) (stamp now limit : ℤ) :
    Except PyException (Jobs × List String) :=
  if limit ≤ 0 then .error (valueError "limit must be a positive integer")
  else
    let ids := (dueRows T E now limit.toNat).map JobRow.jobId
    let u := setState JobState.queued.value stamp
    let rows := E.returning (T.affected (fun r => decide (r.jobId ∈ ids)) u)
    .ok (T.update (fun r => decide (r.jobId ∈ ids)) u, (dueOrder.sort rows).map JobRow.jobId)

def deleteJob (T : Jobs) (jobId : String) : Jobs × Bool :=
  (T.delete jobId, (T.find? jobId).isSome)

/-- `LIMIT limit`, which Postgres refuses when negative. -/
def listSchedulableJobs (T : Jobs) (E : Executor) (limit : ℕ) : List JobRecord :=
  (claimOrder.selectTop E.rank limit
    (T.rows.filter fun r => decide (r.state = JobState.queued.value))).map rowToRecord

/-- What `list_dead_lettered_jobs` reports of a job. -/
structure DeadLetteredJob where
  jobId : String
  tenantId : String
  priority : ℕ
  state : String
  retryCount : ℕ
  maxRetries : ℕ
  createdAt : ℤ
  updatedAt : ℤ
  payload : Payload

def DeadLetteredJob.ofRow (r : JobRow) : DeadLetteredJob where
  jobId := r.jobId
  tenantId := r.tenantId
  priority := r.priority
  state := r.state
  retryCount := r.retryCount
  maxRetries := r.maxRetries
  createdAt := r.createdAt
  updatedAt := r.updatedAt
  payload := r.payload

/-- `ORDER BY updated_at DESC LIMIT limit`. -/
def listDeadLetteredJobs (T : Jobs) (E : Executor) (limit : ℕ) : List DeadLetteredJob :=
  ((SortKey.ascending fun r : JobRow => -r.updatedAt).selectTop E.rank limit
    (T.rows.filter fun r => decide (r.state = JobState.deadLettered.value))).map .ofRow

/-- The `dict` of `count_jobs_by_state`: a state without jobs is not in it. -/
def countJobsByState (T : Jobs) (state : String) : Option ℕ :=
  let count := T.rows.countP fun r => decide (r.state = state)
  if count = 0 then none else some count

/-- `ORDER BY created_at ASC LIMIT limit`. -/
def listJobs (T : Jobs) (E : Executor) (limit : ℕ) : List JobRecord :=
  ((SortKey.ascending JobRow.createdAt).selectTop E.rank limit T.rows).map rowToRecord

def requeueDeadLetteredJob (T : Jobs) (now : ℤ) (jobId : String) : Jobs × Bool :=
  let (T', row) := updateRow T jobId
    (fun r => decide (r.state = JobState.deadLettered.value)) (setRequeued now)
  (T', row.isSome)

/-- The guarded `UPDATE` of `mark_job_dispatched`. -/
def dispatchIfQueued (T : Jobs) (now : ℤ) (jobId : String) : Jobs × Option JobRecord :=
  let (T', row) := updateRow T jobId
    (fun r => decide (r.state = JobState.queued.value)) (setDispatched now)
  (T', row.map rowToRecord)

def markJobDispatched (T : Jobs) (now : ℤ) (jobId : String) : Jobs × Option JobRecord :=
  match getJob T jobId with
  | none => (T, none)
  | some current =>
      if current.state ≠ JobState.queued.value then (T, none) else dispatchIfQueued T now jobId

/-- The subquery of `claim_schedulable_jobs`. -/
def schedulableRows (T : Jobs) (E : Executor) (limit : ℕ) : List JobRow :=
  claimOrder.selectTop E.rank limit
    (T.rows.filter fun r => decide (r.state = JobState.queued.value) && !E.locked r.jobId)

/-- `UPDATE … WHERE job_id IN (…) RETURNING …`, and the sort of what came back. -/
def dispatchRows (T : Jobs) (E : Executor) (now : ℤ) (rows : List JobRow) :
    Jobs × List JobRecord :=
  let ids := rows.map JobRow.jobId
  let returned := E.returning (T.affected (fun r => decide (r.jobId ∈ ids)) (setDispatched now))
  (T.update (fun r => decide (r.jobId ∈ ids)) (setDispatched now),
    recordOrder.sort (returned.map rowToRecord))

def claimSchedulableJobs (T : Jobs) (E : Executor) (now limit : ℤ) :
    Except PyException (Jobs × List JobRecord) :=
  if limit ≤ 0 then .error (valueError "limit must be a positive integer")
  else .ok (dispatchRows T E now (schedulableRows T E limit.toNat))

/-! ## What a method does to one row -/

variable {T T' : Jobs} {E : Executor} {now clock stamp limit : ℤ} {jobId k : String}

theorem find?_updateRow (T : Jobs) (jobId : String) (q : JobRow → Bool) (u : JobUpdate)
    (k : String) : (updateRow T jobId q u).1.find? k =
      if k = jobId then (T.find? k).map fun r => if q r then u.set r else r else T.find? k :=
  T.find?_update_key jobId q u k

theorem snd_updateRow (T : Jobs) (jobId : String) (q : JobRow → Bool) (u : JobUpdate) :
    (updateRow T jobId q u).2 = ((T.find? jobId).filter q).map u.set :=
  T.head?_affected_key jobId q u

/-- Without a guard, the `UPDATE` hits whatever row has the id. -/
theorem snd_updateRow_true (T : Jobs) (jobId : String) (u : JobUpdate) :
    (updateRow T jobId (fun _ => true) u).2 = (T.find? jobId).map u.set := by
  rw [snd_updateRow]
  cases T.find? jobId <;> rfl

/-- A row as `create_job` inserts it. -/
structure Created (state : String) (r : JobRow) : Prop where
  state_eq : r.state = state
  retryCount : r.retryCount = 0
  dispatchedAt : r.dispatchedAt = none
  retryAfter : r.retryAfter = none

/-- The one row that `create_job` adds. -/
theorem createJob_row {tenantId state : String} {priority maxRetries : ℤ}
    {payload : Option Payload} {job : JobRecord}
    (h : createJob T now jobId tenantId priority state payload maxRetries = .ok (T', job)) :
    ∃ r, r.jobId = jobId ∧ r.tenantId = tenantId ∧ r.createdAt = now ∧ Created state r ∧
      T.find? jobId = none ∧ ∀ k, T'.find? k = if jobId = k then some r else T.find? k := by
  unfold createJob at h
  split at h
  · cases h
  split at h
  · split at h
    · dsimp only at h
      split at h
      · rename_i T₁ hinsert
        cases h
        exact ⟨_, rfl, rfl, rfl, ⟨rfl, rfl, rfl, rfl⟩, KeyedTable.find?_eq_none_of_insert hinsert,
          fun k => KeyedTable.find?_insert hinsert k⟩
      · cases h
    · cases h
  · cases h

theorem createJob_eq_ok {tenantId state : String} {priority maxRetries : ℤ}
    {payload : Option Payload} {job : JobRecord}
    (h : createJob T now jobId tenantId priority state payload maxRetries = .ok (T', job)) :
    ∃ r, r.jobId = jobId ∧ r.tenantId = tenantId ∧ Created state r ∧ T.find? jobId = none ∧
      ∀ k, T'.find? k = if jobId = k then some r else T.find? k := by
  obtain ⟨r, hjob, htenant, -, hcreated, hrest⟩ := createJob_row h
  exact ⟨r, hjob, htenant, hcreated, hrest⟩

/-- The record `create_job` returns has what it was called with. -/
theorem createJob_record {tenantId state : String} {priority maxRetries : ℤ}
    {payload : Option Payload} {job : JobRecord}
    (h : createJob T now jobId tenantId priority state payload maxRetries = .ok (T', job)) :
    job.tenantId = tenantId ∧ job.priority = priority ∧ job.payload = payload.getD .empty := by
  unfold createJob at h
  split at h
  · cases h
  split at h
  · split at h
    · rename_i hpositive
      dsimp only at h
      split at h
      · cases h
        exact ⟨rfl, Int.toNat_of_nonneg hpositive.1, rfl⟩
      · cases h
    · cases h
  · cases h

theorem mem_schedulableRows {n : ℕ} {r : JobRow} (h : r ∈ schedulableRows T E n) :
    r ∈ T.rows ∧ r.state = JobState.queued.value ∧ E.locked r.jobId = false := by
  have hr := List.mem_filter.mp (claimOrder.mem_of_mem_selectTop h)
  simpa using hr

theorem schedulableRows_nodup {n : ℕ} : (schedulableRows T E n).Nodup :=
  claimOrder.selectTop_nodup (T.nodup_rows.filter _)

theorem mem_dueRows {n : ℕ} {r : JobRow} (h : r ∈ dueRows T E now n) :
    r ∈ T.rows ∧ isDue now r = true ∧ E.locked r.jobId = false := by
  have hr := List.mem_filter.mp (dueOrder.mem_of_mem_selectTop h)
  simpa using hr

theorem isDue_iff {r : JobRow} : isDue now r = true ↔
    r.state = JobState.retryScheduled.value ∧ ∃ τ, r.retryAfter = some τ ∧ τ ≤ now := by
  rw [isDue, Bool.and_eq_true, decide_eq_true_eq, Option.any_eq_true]
  simp

theorem find?_dispatchRows (T : Jobs) (E : Executor) (now : ℤ) (rows : List JobRow) (k : String) :
    (dispatchRows T E now rows).1.find? k = (T.find? k).map fun r =>
      if r.jobId ∈ rows.map JobRow.jobId then (setDispatched now).set r else r := by
  rw [dispatchRows, KeyedTable.find?_update]
  simp only [decide_eq_true_eq]

/-- Whatever the order of `RETURNING`, the rows come back once each. -/
theorem dispatchRows_perm {rows : List JobRow} (hrows : ∀ r ∈ rows, r ∈ T.rows)
    (hnodup : rows.Nodup) (E : Executor) (now : ℤ) :
    (dispatchRows T E now rows).2.Perm
      (rows.map fun r => rowToRecord ((setDispatched now).set r)) := by
  apply (recordOrder.sort_perm _).trans
  have hperm := T.affected_perm_of_keys hrows hnodup (setDispatched now)
  have hall := ((E.returning_perm _).trans hperm).map rowToRecord
  rwa [List.map_map] at hall

theorem dispatchRows_sorted (T : Jobs) (E : Executor) (now : ℤ) (rows : List JobRow) :
    (dispatchRows T E now rows).2.Pairwise fun a b => recordOrder.le a b = true :=
  recordOrder.sort_sorted _

/-- **A claim**: it dispatches the selected rows, changes no other row, and
returns the selected rows. -/
theorem claimSchedulableJobs_eq_ok {jobs : List JobRecord}
    (h : claimSchedulableJobs T E now limit = .ok (T', jobs)) :
    0 < limit ∧
      (∀ k, T'.find? k = (T.find? k).map fun r =>
        if r.jobId ∈ (schedulableRows T E limit.toNat).map JobRow.jobId
        then (setDispatched now).set r else r) ∧
      jobs.Perm ((schedulableRows T E limit.toNat).map fun r =>
        rowToRecord ((setDispatched now).set r)) := by
  unfold claimSchedulableJobs at h
  split at h
  · cases h
  · rename_i hlimit
    have hrows := Except.ok.inj h
    have hperm := dispatchRows_perm (fun r hr => (mem_schedulableRows hr).1)
      (schedulableRows_nodup (T := T) (E := E) (n := limit.toNat)) E now
    have hfind := find?_dispatchRows T E now (schedulableRows T E limit.toNat)
    rw [hrows] at hperm hfind
    exact ⟨not_le.mp hlimit, hfind, hperm⟩

/-- **A retry scan**: it queues the selected rows and changes no other row. -/
theorem requeueDueRetries_eq_ok {ids : List String}
    (h : requeueDueRetries T E stamp now limit = .ok (T', ids)) :
    0 < limit ∧
      ∀ k, T'.find? k = (T.find? k).map fun r =>
        if r.jobId ∈ (dueRows T E now limit.toNat).map JobRow.jobId
        then (setState JobState.queued.value stamp).set r else r := by
  unfold requeueDueRetries at h
  split at h
  · cases h
  · rename_i hlimit
    cases h
    refine ⟨not_le.mp hlimit, fun k => ?_⟩
    rw [KeyedTable.find?_update]
    simp only [decide_eq_true_eq]

end JobRepository

end KernelQ.ControlPlane
