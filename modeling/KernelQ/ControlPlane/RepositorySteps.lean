import KernelQ.ControlPlane.RepositorySession
import KernelQ.ControlPlane.System

/-!
# What one step does to the table

A run is any sequence of repository calls, each on a connection of its own, and of worker
results that are applied. `Written` says once what a step can do to the table: nothing,
one row more or less, or one `SET` clause on some rows (`Sets`).
-/

namespace KernelQ.ControlPlane

open KernelQ.Foundation

/-- A repository call, or a worker result that is applied. -/
inductive RepositoryStep
  | call (k : RepositoryCall) (m : Moment)
  | result (event : ValidResult) (now clock : ℤ)

inductive StepReply
  | called (r : Except RepositoryError RepositoryReply)
  | handled (r : Except HandlerError Unit)

namespace RepositoryStep

def perform (T : Jobs) : RepositoryStep → Jobs × StepReply
  | .call k m =>
      let (r, c) := k.perform m (.fresh T)
      (c.committed, .called r)
  | .result event now clock =>
      let (T', r) := ResultStateHandler.handle T now clock event.1
      (T', .handled r)

def service : Service Jobs RepositoryStep StepReply := ⟨perform⟩


/-! ## What a step can write -/

/-- The `SET` clauses of a step. -/
inductive Sets : RepositoryStep → JobUpdate → Prop
  | updateJobState (jobId newState : String) (m : Moment) :
      Sets (.call (.updateJobState jobId newState) m) (setState newState m.now)
  | updateJobStateFromWorkerResult (jobId newState : String) (m : Moment) :
      Sets (.call (.updateJobStateFromWorkerResult jobId newState) m) (setState newState m.now)
  | scheduleRetryFromWorkerResult (jobId : String) (retryDelaySeconds : ℤ) (m : Moment) :
      Sets (.call (.scheduleRetryFromWorkerResult jobId retryDelaySeconds) m)
        (setRetryPolicy (m.clock + retryDelaySeconds) m.now)
  | requeueDueRetries (now limit : ℤ) (m : Moment) :
      Sets (.call (.requeueDueRetries now limit) m) (setState JobState.queued.value m.now)
  | requeueDeadLetteredJob (jobId : String) (m : Moment) :
      Sets (.call (.requeueDeadLetteredJob jobId) m) (setRequeued m.now)
  | markJobDispatched (jobId : String) (m : Moment) :
      Sets (.call (.markJobDispatched jobId) m) (setDispatched m.now)
  | claimSchedulableJobs (limit : ℤ) (m : Moment) :
      Sets (.call (.claimSchedulableJobs limit) m) (setDispatched m.now)
  | result (event : ValidResult) (now clock : ℤ) :
      Sets (.result event now clock) (ResultStateHandler.resultUpdate event.1 now clock)

/-- The tables a step can leave. -/
inductive Written (T : Jobs) : RepositoryStep → Jobs → Prop
  | same (step : RepositoryStep) : Written T step T
  | created {jobId tenantId state : String} {priority maxRetries : ℤ} {payload : Option Payload}
      {m : Moment} {T' : Jobs} {job : JobRecord}
      (h : JobRepository.createJob T m.now jobId tenantId priority state payload maxRetries =
        .ok (T', job)) :
      Written T (.call (.createJob jobId tenantId priority state payload maxRetries) m) T'
  | deleted (jobId : String) (m : Moment) :
      Written T (.call (.deleteJob jobId) m) (T.delete jobId)
  | updated {step : RepositoryStep} (q : JobRow → Bool) {u : JobUpdate} (hu : Sets step u) :
      Written T step (T.update q u)

variable {T : Jobs} {step : RepositoryStep}

/-- One statement: what it writes, the call leaves. -/
theorem written_of_statement {α : Type} (m : Moment) (i : ℕ) (parameters : Option DatabaseError)
    {run : Jobs → Except DatabaseError (Jobs × α)} (keep : α → Bool)
    (hrun : ∀ T' a, run T = .ok (T', a) → Written T step T') :
    Written T step ((Session.transact parameters (m.statement i run) keep : RepositoryMethod α)
      (.fresh T)).2.committed := by
  rcases Session.committed_transact parameters (m.statement i run) keep T with
    hsame | ⟨T', a, hstatement, hcommitted⟩
  · rw [hsame]
    exact .same step
  · rw [hcommitted]
    rw [Moment.statement] at hstatement
    split at hstatement
    · cases hstatement
    · exact hrun T' a hstatement

theorem written_of_update {α : Type} (m : Moment) (i : ℕ) (parameters : Option DatabaseError)
    {run : Jobs → Jobs × α} (keep : α → Bool) (hrun : Written T step (run T).1) :
    Written T step ((Session.transact parameters (m.statement i fun T => .ok (run T)) keep :
      RepositoryMethod α) (.fresh T)).2.committed := by
  apply written_of_statement
  intro T' a h
  rwa [Except.ok.inj h] at hrun

/-- The same behind a check of its limit. -/
theorem written_of_checked {α : Type} (m : Moment) (limit : ℤ) {run : Jobs → Jobs × α}
    (hrun : Written T step (run T).1) :
    Written T step (RepositorySession.checked limit
      (Session.transact none (m.statement 0 fun T => .ok (run T)) fun _ => true)
      (.fresh T)).2.committed := by
  rcases RepositoryCall.checked_cases m limit run T with ⟨e, c, hcall, hc⟩ | ⟨-, hcall⟩
  · rw [hcall]
    show Written T step c.committed
    rw [hc]
    exact .same step
  · rw [hcall]
    exact hrun

theorem written_markJobDispatched (T : Jobs) (jobId : String) (m : Moment) :
    Written T (.call (.markJobDispatched jobId) m)
      (RepositorySession.markJobDispatched m jobId (.fresh T)).2.committed := by
  by_cases htexts : textError [jobId] = none
  · rcases RepositoryCall.markJobDispatched_cases m htexts T with
      ⟨e, -, hcall⟩ | ⟨-, -, hcall⟩ | ⟨-, -, hcall⟩
    · rw [hcall]
      exact .same _
    · rw [hcall]
      exact .same _
    · rw [hcall]
      exact written_of_update m 1 _ _ (.updated _ (.markJobDispatched jobId m))
  · -- the id cannot be sent, and the call stops before its first statement
    have hnot : ¬ (RepositoryCall.markJobDispatched jobId).Sends := fun hsends =>
      htexts (RepositoryCall.textError_eq_none_iff.mpr hsends.1)
    obtain ⟨outcome, hcall⟩ := (RepositoryCall.orderly_markJobDispatched m jobId).unsent hnot
    rw [hcall]
    exact .same _

theorem written_call (T : Jobs) (k : RepositoryCall) (m : Moment) :
    Written T (.call k m) (k.perform m (.fresh T)).2.committed := by
  cases k with
  | createJob jobId tenantId priority state payload maxRetries =>
      rw [RepositoryCall.perform, Session.map_apply]
      apply written_of_statement
      intro T' job h
      cases hcreate : JobRepository.createJob T m.now jobId tenantId priority state payload
          maxRetries with
      | error e =>
          rw [hcreate] at h
          cases h
      | ok r =>
          rw [hcreate] at h
          cases h
          exact .created hcreate
  | listSchedulableJobs limit =>
      rw [RepositoryCall.perform, Session.map_apply]
      apply written_of_statement
      intro T' jobs h
      split at h
      · cases h
      · cases h
        exact .same _
  | updateJobState jobId newState =>
      rw [RepositoryCall.perform, Session.map_apply]
      exact written_of_update m 0 _ _ (.updated _ (.updateJobState jobId newState m))
  | updateJobStateFromWorkerResult jobId newState =>
      rw [RepositoryCall.perform, Session.map_apply]
      exact written_of_update m 0 _ _ (.updated _ (.updateJobStateFromWorkerResult jobId newState m))
  | scheduleRetryFromWorkerResult jobId retryDelaySeconds =>
      rw [RepositoryCall.perform, Session.map_apply]
      exact written_of_update m 0 _ _
        (.updated _ (.scheduleRetryFromWorkerResult jobId retryDelaySeconds m))
  | requeueDueRetries now limit =>
      rw [RepositoryCall.perform, Session.map_apply]
      exact written_of_checked m limit (.updated _ (.requeueDueRetries now limit m))
  | requeueDeadLetteredJob jobId =>
      rw [RepositoryCall.perform, Session.map_apply]
      exact written_of_update m 0 _ _ (.updated _ (.requeueDeadLetteredJob jobId m))
  | claimSchedulableJobs limit =>
      rw [RepositoryCall.perform, Session.map_apply]
      exact written_of_checked m limit (.updated _ (.claimSchedulableJobs limit m))
  | markJobDispatched jobId =>
      rw [RepositoryCall.perform, Session.map_apply]
      exact written_markJobDispatched T jobId m
  | deleteJob jobId =>
      rw [RepositoryCall.perform, Session.map_apply]
      exact written_of_update m 0 _ _ (.deleted jobId m)
  | getJob _ | countJobsByState =>
      rw [RepositoryCall.perform, Session.map_apply]
      exact written_of_update m 0 _ _ (.same _)
  | listDeadLetteredJobs limit | listJobs limit =>
      rw [RepositoryCall.perform, Session.map_apply]
      exact written_of_checked m limit (.same _)

/-- **What a step can do.** -/
theorem written (T : Jobs) (step : RepositoryStep) : Written T step (perform T step).1 := by
  cases step with
  | call k m => exact written_call T k m
  | result event now clock =>
      show Written T _ (ResultStateHandler.handle T now clock event.1).1
      rw [ResultStateHandler.handle_eq _ _ _ event.2]
      exact .updated _ (.result event now clock)

end RepositoryStep

end KernelQ.ControlPlane
