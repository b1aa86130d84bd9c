import KernelQ.Foundation.Transactions
import KernelQ.ControlPlane.JobRepository
import KernelQ.ControlPlane.SchedulerTick

/-!
# The repository on its connection

Every method of `job_repository.py` as the statements it sends, and the commits and
rollbacks it makes. The only rollbacks are those of methods that find no row. A
statement that the server refuses raises through the method, and nothing in the
method, or in `run_once` of the runners that call it, rolls back.
-/

namespace KernelQ.ControlPlane

open KernelQ.Foundation
open KernelQ.Foundation.Session (execute commit rollback transact raise ret)

/-- Why a statement fails: for its row, for its `LIMIT`, or for a reason of the
server's own (a lock timeout, a value out of range, a missing column). -/
inductive DatabaseError
  | row (e : DbError)
  | negativeLimit
  | refused (e : PyException)

/-- When a call is made, and what it leaves to the server: the `NOW()` of its
transaction, `int(time.time())`, the plan, and which of its statements fail. -/
structure Moment where
  now : ℤ
  clock : ℤ
  executor : Executor
  fault : ℕ → Option PyException

/-- The `i`-th statement of a call. -/
def Moment.statement {α : Type} (m : Moment) (i : ℕ) (run : Jobs → Except DatabaseError (Jobs × α)) :
    Jobs → Except DatabaseError (Jobs × α) := fun T =>
  match m.fault i with
  | some e => .error (.refused e)
  | none => run T

abbrev RepositoryError := SessionError PyException DatabaseError

abbrev RepositoryMethod (α : Type) := Session Jobs PyException DatabaseError α

/-- Parameters that are texts: the driver does not send a NUL character. -/
def textError (texts : List String) : Option DatabaseError :=
  if ∃ t ∈ texts, '\x00' ∈ t.toList then some (.row .nulCharacter) else none

namespace RepositorySession

def createJob (m : Moment) (jobId tenantId : String) (priority : ℤ) (state : String)
    (payload : Option Payload) (maxRetries : ℤ) : RepositoryMethod JobRecord :=
  transact (textError [jobId, tenantId, state])
    (m.statement 0 fun T =>
      (JobRepository.createJob T m.now jobId tenantId priority state payload maxRetries).mapError
        .row)
    fun _ => true

def getJob (m : Moment) (jobId : String) : RepositoryMethod (Option JobRecord) :=
  transact (textError [jobId]) (m.statement 0 fun T => .ok (T, JobRepository.getJob T jobId))
    fun _ => true

def updateJobState (m : Moment) (jobId newState : String) : RepositoryMethod (Option JobRecord) :=
  transact (textError [jobId, newState])
    (m.statement 0 fun T => .ok (JobRepository.updateJobState T m.now jobId newState))
    Option.isSome

def updateJobStateFromWorkerResult (m : Moment) (jobId newState : String) : RepositoryMethod Bool :=
  transact (textError [jobId, newState])
    (m.statement 0 fun T =>
      .ok (JobRepository.updateJobStateFromWorkerResult T m.now jobId newState))
    fun _ => true

def scheduleRetryFromWorkerResult (m : Moment) (jobId : String) (retryDelaySeconds : ℤ) :
    RepositoryMethod (Option JobRepository.ScheduleRetryResult) :=
  transact (textError [jobId])
    (m.statement 0 fun T =>
      .ok (JobRepository.scheduleRetryFromWorkerResult T m.now m.clock jobId retryDelaySeconds))
    Option.isSome

/-- The check that most methods with a limit make first. -/
def checked {α : Type} (limit : ℤ) (method : RepositoryMethod α) : RepositoryMethod α :=
  if limit ≤ 0 then raise (valueError "limit must be a positive integer") else method

/-- The `UPDATE` of `requeue_due_retries`, and the sort of what came back. -/
def requeueRows (T : Jobs) (E : Executor) (stamp : ℤ) (rows : List JobRow) : Jobs × List String :=
  let ids := rows.map JobRow.jobId
  let u := setState JobState.queued.value stamp
  let returned := E.returning (T.affected (fun r => decide (r.jobId ∈ ids)) u)
  (T.update (fun r => decide (r.jobId ∈ ids)) u, (dueOrder.sort returned).map JobRow.jobId)

def requeueDueRetries (m : Moment) (now limit : ℤ) : RepositoryMethod (List String) :=
  checked limit
    (transact none
      (m.statement 0 fun T =>
        .ok (requeueRows T m.executor m.now
          (JobRepository.dueRows T m.executor now limit.toNat)))
      fun _ => true)

def deleteJob (m : Moment) (jobId : String) : RepositoryMethod Bool :=
  transact (textError [jobId]) (m.statement 0 fun T => .ok (JobRepository.deleteJob T jobId))
    fun _ => true

/-- The one listing without a check of its limit. -/
def listSchedulableJobs (m : Moment) (limit : ℤ) : RepositoryMethod (List JobRecord) :=
  transact none
    (m.statement 0 fun T =>
      if limit < 0 then .error .negativeLimit
      else .ok (T, JobRepository.listSchedulableJobs T m.executor limit.toNat))
    fun _ => true

def listDeadLetteredJobs (m : Moment) (limit : ℤ) :
    RepositoryMethod (List JobRepository.DeadLetteredJob) :=
  checked limit
    (transact none
      (m.statement 0 fun T =>
        .ok (T, JobRepository.listDeadLetteredJobs T m.executor limit.toNat))
      fun _ => true)

def countJobsByState (m : Moment) : RepositoryMethod (String → Option ℕ) :=
  transact none (m.statement 0 fun T => .ok (T, JobRepository.countJobsByState T)) fun _ => true

def listJobs (m : Moment) (limit : ℤ) : RepositoryMethod (List JobRecord) :=
  checked limit
    (transact none
      (m.statement 0 fun T => .ok (T, JobRepository.listJobs T m.executor limit.toNat))
      fun _ => true)

def requeueDeadLetteredJob (m : Moment) (jobId : String) : RepositoryMethod Bool :=
  transact (textError [jobId])
    (m.statement 0 fun T => .ok (JobRepository.requeueDeadLetteredJob T m.now jobId))
    fun _ => true

/-- Two transactions: `get_job` commits before the guarded `UPDATE` is sent. -/
def markJobDispatched (m : Moment) (jobId : String) : RepositoryMethod (Option JobRecord) :=
  (getJob m jobId).andThen fun current =>
    match current with
    | none => ret none
    | some job =>
        if job.state ≠ JobState.queued.value then ret none
        else
          transact (textError [jobId])
            (m.statement 1 fun T => .ok (JobRepository.dispatchIfQueued T m.now jobId))
            Option.isSome

def claimSchedulableJobs (m : Moment) (limit : ℤ) : RepositoryMethod (List JobRecord) :=
  checked limit
    (transact none
      (m.statement 0 fun T =>
        .ok (JobRepository.dispatchRows T m.executor m.now
          (JobRepository.schedulableRows T m.executor limit.toNat)))
      fun _ => true)

end RepositorySession

/-! ## All the methods as one -/

inductive RepositoryCall
  | createJob (jobId tenantId : String) (priority : ℤ) (state : String) (payload : Option Payload)
      (maxRetries : ℤ)
  | getJob (jobId : String)
  | updateJobState (jobId newState : String)
  | updateJobStateFromWorkerResult (jobId newState : String)
  | scheduleRetryFromWorkerResult (jobId : String) (retryDelaySeconds : ℤ)
  | requeueDueRetries (now limit : ℤ)
  | deleteJob (jobId : String)
  | listSchedulableJobs (limit : ℤ)
  | listDeadLetteredJobs (limit : ℤ)
  | countJobsByState
  | listJobs (limit : ℤ)
  | requeueDeadLetteredJob (jobId : String)
  | markJobDispatched (jobId : String)
  | claimSchedulableJobs (limit : ℤ)

/-- What a method returns. -/
inductive RepositoryReply
  | record (job : Option JobRecord)
  | done (changed : Bool)
  | retry (result : Option JobRepository.ScheduleRetryResult)
  | ids (jobIds : List String)
  | records (jobs : List JobRecord)
  | deadLettered (jobs : List JobRepository.DeadLetteredJob)
  | counts (byState : String → Option ℕ)

namespace RepositoryCall

def perform (m : Moment) : RepositoryCall → RepositoryMethod RepositoryReply
  | .createJob jobId tenantId priority state payload maxRetries =>
      (RepositorySession.createJob m jobId tenantId priority state payload maxRetries).map
        fun job => .record (some job)
  | .getJob jobId => (RepositorySession.getJob m jobId).map .record
  | .updateJobState jobId newState =>
      (RepositorySession.updateJobState m jobId newState).map .record
  | .updateJobStateFromWorkerResult jobId newState =>
      (RepositorySession.updateJobStateFromWorkerResult m jobId newState).map .done
  | .scheduleRetryFromWorkerResult jobId retryDelaySeconds =>
      (RepositorySession.scheduleRetryFromWorkerResult m jobId retryDelaySeconds).map .retry
  | .requeueDueRetries now limit => (RepositorySession.requeueDueRetries m now limit).map .ids
  | .deleteJob jobId => (RepositorySession.deleteJob m jobId).map .done
  | .listSchedulableJobs limit => (RepositorySession.listSchedulableJobs m limit).map .records
  | .listDeadLetteredJobs limit =>
      (RepositorySession.listDeadLetteredJobs m limit).map .deadLettered
  | .countJobsByState => (RepositorySession.countJobsByState m).map .counts
  | .listJobs limit => (RepositorySession.listJobs m limit).map .records
  | .requeueDeadLetteredJob jobId => (RepositorySession.requeueDeadLetteredJob m jobId).map .done
  | .markJobDispatched jobId => (RepositorySession.markJobDispatched m jobId).map .record
  | .claimSchedulableJobs limit => (RepositorySession.claimSchedulableJobs m limit).map .records

/-- The texts among the parameters. -/
def texts : RepositoryCall → List String
  | .createJob jobId tenantId _ state _ _ => [jobId, tenantId, state]
  | .updateJobState jobId newState => [jobId, newState]
  | .updateJobStateFromWorkerResult jobId newState => [jobId, newState]
  | .getJob jobId => [jobId]
  | .scheduleRetryFromWorkerResult jobId _ => [jobId]
  | .deleteJob jobId => [jobId]
  | .requeueDeadLetteredJob jobId => [jobId]
  | .markJobDispatched jobId => [jobId]
  | _ => []

/-- The limit, where the method checks it. -/
def checkedLimit : RepositoryCall → Option ℤ
  | .requeueDueRetries _ limit => some limit
  | .listDeadLetteredJobs limit => some limit
  | .listJobs limit => some limit
  | .claimSchedulableJobs limit => some limit
  | _ => none

/-- The call gets as far as sending a statement. -/
def Sends (k : RepositoryCall) : Prop :=
  (∀ t ∈ k.texts, '\x00' ∉ t.toList) ∧ ∀ limit ∈ k.checkedLimit, 0 < limit

/-- The statement is one that no server accepts: a row that exists, a value out of
the range of its column, a negative `LIMIT`. -/
def Violates (T : Jobs) : RepositoryCall → Prop
  | .createJob jobId _ priority _ _ maxRetries =>
      (∃ r, T.find? jobId = some r) ∨ priority < 0 ∨ 2 ^ 31 ≤ priority ∨ maxRetries < 0 ∨
        2 ^ 31 ≤ maxRetries
  | .listSchedulableJobs limit => limit < 0
  | _ => False

/-- The call sends a second statement: it dispatches a job it has found queued. -/
def SendsSecond (T : Jobs) : RepositoryCall → Prop
  | .markJobDispatched jobId => ∃ r, T.find? jobId = some r ∧ r.state = JobState.queued.value
  | _ => False

/-- The server refuses one of the statements. -/
def Refused (m : Moment) (k : RepositoryCall) (T : Jobs) : Prop :=
  k.Sends ∧ ((m.fault 0).isSome ∨ k.Violates T ∨ k.SendsSecond T ∧ (m.fault 1).isSome)

/-! ## What the methods have in common -/

theorem textError_eq_none_iff {texts : List String} :
    textError texts = none ↔ ∀ t ∈ texts, '\x00' ∉ t.toList := by
  simp [textError]

theorem statement_refused_iff {α : Type} (m : Moment) (i : ℕ)
    (run : Jobs → Except DatabaseError (Jobs × α)) (T : Jobs) :
    (∃ e, m.statement i run T = .error e) ↔ (m.fault i).isSome ∨ ∃ e, run T = .error e := by
  rw [Moment.statement]
  cases m.fault i with
  | none => simp
  | some e => simp

/-- One statement, with texts among its parameters. -/
theorem orderly_statement {α : Type} (m : Moment) (texts : List String)
    {run : Jobs → Except DatabaseError (Jobs × α)} {bad : Jobs → Prop}
    (hbad : (∀ t ∈ texts, '\x00' ∉ t.toList) → ∀ T, (∃ e, run T = .error e) ↔ bad T)
    (keep : α → Bool) :
    Session.Orderly
      (transact (textError texts) (m.statement 0 run) keep : RepositoryMethod α)
      (∀ t ∈ texts, '\x00' ∉ t.toList)
      fun T => (∀ t ∈ texts, '\x00' ∉ t.toList) ∧ ((m.fault 0).isSome ∨ bad T) := by
  apply (Session.orderly_transact _ _ keep).congr textError_eq_none_iff
  intro T
  rw [textError_eq_none_iff, statement_refused_iff]
  exact and_congr_right fun htexts => or_congr_right (hbad htexts T)

/-- A statement that is refused only for a reason of the server's own. -/
theorem orderly_update {α : Type} (m : Moment) (texts : List String) (run : Jobs → Jobs × α)
    (keep : α → Bool) :
    Session.Orderly
      (transact (textError texts) (m.statement 0 fun T => .ok (run T)) keep : RepositoryMethod α)
      (∀ t ∈ texts, '\x00' ∉ t.toList)
      fun _ => (∀ t ∈ texts, '\x00' ∉ t.toList) ∧ (m.fault 0).isSome := by
  apply (Session.orderly_transact _ _ keep).congr textError_eq_none_iff
  intro _
  rw [textError_eq_none_iff, statement_refused_iff]
  simp

/-- The same without texts, and for any statement of a call. -/
theorem orderly_update_nil {α : Type} (m : Moment) (i : ℕ) (run : Jobs → Jobs × α)
    (keep : α → Bool) :
    Session.Orderly
      (transact none (m.statement i fun T => .ok (run T)) keep : RepositoryMethod α)
      True fun _ => (m.fault i).isSome := by
  apply (Session.orderly_transact _ _ keep).congr (by simp)
  intro _
  rw [statement_refused_iff]
  simp

theorem createJob_refused_iff (T : Jobs) (now : ℤ) {jobId tenantId state : String}
    (htexts : ∀ t ∈ [jobId, tenantId, state], '\x00' ∉ t.toList) (priority : ℤ)
    (payload : Option Payload) (maxRetries : ℤ) :
    (∃ e, (JobRepository.createJob T now jobId tenantId priority state payload
        maxRetries).mapError DatabaseError.row = .error e) ↔
      (createJob jobId tenantId priority state payload maxRetries).Violates T := by
  have htexts' : ¬ ('\x00' ∈ jobId.toList ∨ '\x00' ∈ tenantId.toList ∨ '\x00' ∈ state.toList) := by
    simpa using htexts
  rw [JobRepository.createJob, if_neg htexts', Violates]
  split
  · rename_i hrange
    by_cases hpositive : 0 ≤ priority ∧ 0 ≤ maxRetries
    · rw [if_pos hpositive]
      dsimp only
      split
      · rename_i T' h
        have hfree : T.find? jobId = none := KeyedTable.find?_eq_none_of_insert h
        simp [Except.mapError, hfree]
        omega
      · rename_i h
        exact iff_of_true ⟨_, rfl⟩ (Or.inl (KeyedTable.insert?_eq_none_iff.mp h))
    · rw [if_neg hpositive]
      refine iff_of_true ⟨_, rfl⟩ (Or.inr ?_)
      omega
  · refine iff_of_true ⟨_, rfl⟩ (Or.inr ?_)
    omega

/-- `mark_job_dispatched` fails in `get_job`, finds nothing to dispatch, or sends its
guarded `UPDATE`. -/
theorem markJobDispatched_cases (m : Moment) {jobId : String} (htexts : textError [jobId] = none)
    (T : Jobs) :
    (∃ e, m.fault 0 = some e ∧
        RepositorySession.markJobDispatched m jobId (.fresh T) =
          (.error (.server (.refused e)), ⟨T, T, true⟩)) ∨
      m.fault 0 = none ∧ ¬ (markJobDispatched jobId).SendsSecond T ∧
        RepositorySession.markJobDispatched m jobId (.fresh T) = (.ok none, .fresh T) ∨
      m.fault 0 = none ∧ (markJobDispatched jobId).SendsSecond T ∧
        RepositorySession.markJobDispatched m jobId (.fresh T) =
          transact none
            (m.statement 1 fun T => .ok (JobRepository.dispatchIfQueued T m.now jobId))
            Option.isSome (.fresh T) := by
  simp only [RepositorySession.markJobDispatched, RepositorySession.getJob, Session.andThen,
    htexts, Session.transact_fresh, Moment.statement]
  cases hfirst : m.fault 0 with
  | some e => exact Or.inl ⟨e, rfl, rfl⟩
  | none =>
      refine Or.inr ?_
      cases hrow : T.find? jobId with
      | none =>
          refine Or.inl ⟨rfl, ?_, ?_⟩
          · simp [SendsSecond, hrow]
          · simp [JobRepository.getJob, hrow, ret]
      | some r =>
          by_cases hqueued : r.state = JobState.queued.value
          · refine Or.inr ⟨rfl, ⟨r, hrow, hqueued⟩, ?_⟩
            simp [JobRepository.getJob, hrow, rowToRecord, hqueued, Session.transact_fresh,
              Moment.statement]
          · refine Or.inl ⟨rfl, ?_, ?_⟩
            · simp [SendsSecond, hrow, hqueued]
            · simp [JobRepository.getJob, hrow, ret, rowToRecord, hqueued]

theorem orderly_markJobDispatched (m : Moment) (jobId : String) :
    Session.Orderly (RepositorySession.markJobDispatched m jobId) (markJobDispatched jobId).Sends
      ((markJobDispatched jobId).Refused m) := by
  have hsends : (markJobDispatched jobId).Sends ↔ textError [jobId] = none := by
    simp [Sends, texts, checkedLimit, textError_eq_none_iff]
  -- the guarded `UPDATE`, as a transaction of its own
  have hsecond := orderly_update_nil m 1
    (fun T => JobRepository.dispatchIfQueued T m.now jobId) Option.isSome
  have hrefused : ∀ T, (markJobDispatched jobId).Refused m T ↔
      (markJobDispatched jobId).Sends ∧ ((m.fault 0).isSome ∨
        (markJobDispatched jobId).SendsSecond T ∧ (m.fault 1).isSome) := by
    intro T
    simp [Refused, Violates]
  constructor
  · intro hnot
    rw [hsends] at hnot
    obtain ⟨e, he⟩ := Option.ne_none_iff_exists'.mp hnot
    refine ⟨.error (.client e), fun c => ?_⟩
    simp only [RepositorySession.markJobDispatched, RepositorySession.getJob, Session.andThen,
      transact, execute, he]
  · intro hsent c hc
    rw [hsends] at hsent
    simp only [RepositorySession.markJobDispatched, RepositorySession.getJob, Session.andThen,
      transact, execute, hsent, hc, if_true]
  · intro hsent T hok
    rw [hrefused] at hok
    rcases markJobDispatched_cases m (hsends.mp hsent) T with
      ⟨e, hfault, -⟩ | ⟨-, -, hcall⟩ | ⟨-, hqueued, hcall⟩
    · exact absurd ⟨hsent, Or.inl (by simp [hfault])⟩ hok
    · exact ⟨none, T, hcall⟩
    · rw [hcall]
      apply hsecond.served trivial
      intro hfault
      exact hok ⟨hsent, Or.inr ⟨hqueued, hfault⟩⟩
  · intro T hbad
    obtain ⟨hsent, hbad⟩ := (hrefused T).mp hbad
    refine ⟨hsent, ?_⟩
    rcases markJobDispatched_cases m (hsends.mp hsent) T with
      ⟨e, hfault, hcall⟩ | ⟨hfault, hnot, -⟩ | ⟨hfault, hqueued, hcall⟩
    · exact ⟨_, _, hcall, rfl, rfl⟩
    · rcases hbad with hbad | ⟨hqueued, -⟩
      · simp [hfault] at hbad
      · exact absurd hqueued hnot
    · rw [hcall]
      apply (hsecond.refused T _).2
      rcases hbad with hbad | ⟨-, hbad⟩
      · simp [hfault] at hbad
      · exact hbad

/-- A check of the limit, where there is one, and a statement without texts. -/
theorem orderly_checked {α : Type} (m : Moment) (limit : ℤ) (run : Jobs → Jobs × α) :
    Session.Orderly
      (RepositorySession.checked limit
        (transact none (m.statement 0 fun T => .ok (run T)) fun _ => true))
      (0 < limit) fun _ => 0 < limit ∧ (m.fault 0).isSome := by
  have hstatement := orderly_update_nil m 0 run fun _ => true
  apply (hstatement.guard (limit ≤ 0) (valueError "limit must be a positive integer")).congr
  · simp
  · simp

/-- **Every method is orderly**: its statements, and then a commit or a rollback. -/
theorem orderly_perform (m : Moment) (k : RepositoryCall) :
    Session.Orderly (k.perform m) k.Sends (k.Refused m) := by
  cases k with
  | createJob jobId tenantId priority state payload maxRetries =>
      have hcreate := orderly_statement m [jobId, tenantId, state]
        (fun htexts T => createJob_refused_iff T m.now htexts priority payload maxRetries)
        fun _ => true
      apply (hcreate.map _).congr
      · simp [Sends, texts, checkedLimit]
      · intro T
        simp [Refused, Sends, texts, checkedLimit, SendsSecond]
  | listSchedulableJobs limit =>
      have hlist : Session.Orderly (RepositorySession.listSchedulableJobs m limit) _ _ :=
        Session.orderly_transact _ _ _
      apply (hlist.map _).congr
      · simp [Sends, texts, checkedLimit]
      · intro T
        rw [statement_refused_iff]
        by_cases hlimit : limit < 0 <;>
          simp [Refused, Sends, texts, checkedLimit, Violates, SendsSecond, hlimit]
  | countJobsByState =>
      apply ((orderly_update_nil m 0 _ _).map _).congr
      · simp [Sends, texts, checkedLimit]
      · intro T
        simp [Refused, Sends, texts, checkedLimit, Violates, SendsSecond]
  | markJobDispatched jobId => exact (orderly_markJobDispatched m jobId).map _
  | requeueDueRetries _ _ | listDeadLetteredJobs _ | listJobs _ | claimSchedulableJobs _ =>
      apply ((orderly_checked m _ _).map _).congr
      · simp [Sends, texts, checkedLimit]
      · intro T
        simp [Refused, Sends, texts, checkedLimit, Violates, SendsSecond]
  | getJob _ | updateJobState _ _ | updateJobStateFromWorkerResult _ _ | deleteJob _
  | scheduleRetryFromWorkerResult _ _ | requeueDeadLetteredJob _ =>
      apply ((orderly_update m _ _ _).map _).congr
      · simp [Sends, texts, checkedLimit]
      · intro T
        simp [Refused, Sends, texts, checkedLimit, Violates, SendsSecond]

/-! ## Claims and retry scans on a connection of their own -/

/-- A statement behind a check of its limit is not sent, is refused, or commits. -/
theorem checked_cases {α : Type} (m : Moment) (limit : ℤ) (run : Jobs → Jobs × α) (T : Jobs) :
    (∃ e c, RepositorySession.checked limit
        (transact none (m.statement 0 fun T => .ok (run T)) fun _ => true) (.fresh T) =
          (.error e, c) ∧ c.committed = T) ∨
      0 < limit ∧ RepositorySession.checked limit
        (transact none (m.statement 0 fun T => .ok (run T)) fun _ => true) (.fresh T) =
          (.ok (run T).2, .fresh (run T).1) := by
  rw [RepositorySession.checked]
  by_cases hlimit : limit ≤ 0
  · rw [if_pos hlimit]
    exact Or.inl ⟨_, _, rfl, rfl⟩
  · rw [if_neg hlimit, Session.transact_fresh, Moment.statement]
    cases m.fault 0 with
    | some e => exact Or.inl ⟨_, _, rfl, rfl⟩
    | none => exact Or.inr ⟨not_le.mp hlimit, rfl⟩

theorem perform_claimSchedulableJobs (m : Moment) (limit : ℤ) (T : Jobs) :
    (∃ e c, (claimSchedulableJobs limit).perform m (.fresh T) = (.error e, c) ∧
        c.committed = T) ∨
      ∃ T' jobs, JobRepository.claimSchedulableJobs T m.executor m.now limit = .ok (T', jobs) ∧
        (claimSchedulableJobs limit).perform m (.fresh T) = (.ok (.records jobs), .fresh T') := by
  rw [perform, Session.map_apply, RepositorySession.claimSchedulableJobs]
  rcases checked_cases m limit (fun T => JobRepository.dispatchRows T m.executor m.now
    (JobRepository.schedulableRows T m.executor limit.toNat)) T with ⟨e, c, hcall, hc⟩ | ⟨hlimit, hcall⟩
  · rw [hcall]
    exact Or.inl ⟨e, c, rfl, hc⟩
  · rw [hcall, JobRepository.claimSchedulableJobs, if_neg (not_le.mpr hlimit)]
    exact Or.inr ⟨_, _, rfl, rfl⟩

theorem perform_requeueDueRetries (m : Moment) (now limit : ℤ) (T : Jobs) :
    (∃ e c, (requeueDueRetries now limit).perform m (.fresh T) = (.error e, c) ∧
        c.committed = T) ∨
      ∃ T' jobIds,
        JobRepository.requeueDueRetries T m.executor m.now now limit = .ok (T', jobIds) ∧
        (requeueDueRetries now limit).perform m (.fresh T) = (.ok (.ids jobIds), .fresh T') := by
  rw [perform, Session.map_apply, RepositorySession.requeueDueRetries]
  rcases checked_cases m limit (fun T => RepositorySession.requeueRows T m.executor m.now
    (JobRepository.dueRows T m.executor now limit.toNat)) T with ⟨e, c, hcall, hc⟩ | ⟨hlimit, hcall⟩
  · rw [hcall]
    exact Or.inl ⟨e, c, rfl, hc⟩
  · rw [hcall, JobRepository.requeueDueRetries, if_neg (not_le.mpr hlimit)]
    exact Or.inr ⟨_, _, rfl, rfl⟩

end RepositoryCall

end KernelQ.ControlPlane
