import KernelQ.ControlPlane.RepositorySession

/-!
# After a database error

A repository keeps its connection, and so do the runners that keep a repository.
They catch what a method raises and report it; the aborted transaction stays. The
next call is then refused as well, whatever it is (`usable_after_error_iff`).
-/

namespace KernelQ.ControlPlane

open KernelQ.Foundation
open KernelQ.Foundation.Session (service)

/-- A call, and when it is made. -/
abbrev TimedCall := RepositoryCall × Moment

namespace TimedCall

def perform (k : TimedCall) : RepositoryMethod RepositoryReply := k.1.perform k.2

def Sends (k : TimedCall) : Prop := k.1.Sends

def Refused (k : TimedCall) (T : Jobs) : Prop := k.1.Refused k.2 T

theorem orderly (k : TimedCall) : Session.Orderly k.perform k.Sends k.Refused :=
  RepositoryCall.orderly_perform k.2 k.1

/-- The connection after the calls. -/
def connection (T : Jobs) (calls : List TimedCall) : Connection Jobs :=
  (service perform).after (.fresh T) calls

/-- The server has refused a statement of one of the calls. -/
def SomeRefused (T : Jobs) (calls : List TimedCall) : Prop :=
  ∃ pre k post, calls = pre ++ k :: post ∧ k.Refused (connection T pre).committed

end TimedCall

/-! ## The runners -/

structure RetryScannerResult where
  scannedAt : ℤ
  requeuedCount : ℕ
  requeuedJobIds : List String := []
  errors : List String := []

structure RetryScanner where
  maxJobsPerScan : ℤ := 100
  maxJobs_pos : 0 < maxJobsPerScan

namespace RetryScanner

/-- What the scanner makes of the outcome; `describe` prints an exception. -/
def report (describe : RepositoryError → String) (scannedAt : ℤ) :
    Except RepositoryError (List String) → RetryScannerResult
  | .error e =>
      { scannedAt, requeuedCount := 0, errors := ["requeue_due_retries: " ++ describe e] }
  | .ok requeuedJobIds => { scannedAt, requeuedCount := requeuedJobIds.length, requeuedJobIds }

/-- `run_once` of a scanner with a repository. -/
def runOnce (describe : RepositoryError → String) (scanner : RetryScanner) (m : Moment)
    (now : Option ℤ) (c : Connection Jobs) : RetryScannerResult × Connection Jobs :=
  let scannedAt := now.getD m.clock
  let (outcome, c') := RepositorySession.requeueDueRetries m scannedAt scanner.maxJobsPerScan c
  (report describe scannedAt outcome, c')

end RetryScanner

namespace SchedulerTickRunner

variable {σ π : Type} (S : IdempotencyStore σ) (P : JobProducer π)

/-- What the scheduler makes of the outcome: the store and the producer after it,
and its result or the exception that escapes. -/
def report (describe : RepositoryError → String) (runner : SchedulerTickRunner) (store : σ)
    (producer : π) : Except RepositoryError (List JobRecord) →
      σ × π × Except PyException SchedulerTickResult
  | .error e =>
      (store, producer, .ok
        { selectedCount := 0
          dispatchedCount := 0
          errors := ["claim_schedulable_jobs: " ++ describe e] })
  | .ok claimedJobs =>
      match publishJobs S P runner ⟨store, producer, 0, [], 0⟩ claimedJobs with
      | (l, some e) => (l.store, l.producer, .error e)
      | (l, none) =>
          (l.store, l.producer, .ok
            { selectedCount := claimedJobs.length
              dispatchedCount := claimedJobs.length
              dispatchedJobIds := claimedJobs.map JobRecord.jobId
              publishedCount := l.publishedCount
              publishErrors := l.publishErrors
              duplicateDispatches := l.duplicateDispatches })

/-- `run_once` of a scheduler on its connection. -/
def runOnceOn (describe : RepositoryError → String) (runner : SchedulerTickRunner) (m : Moment)
    (store : σ) (producer : π) (c : Connection Jobs) :
    (σ × π × Except PyException SchedulerTickResult) × Connection Jobs :=
  let (outcome, c') := RepositorySession.claimSchedulableJobs m runner.maxJobsPerTick c
  (report S P describe runner store producer outcome, c')

/-- A tick that could not claim says so. -/
theorem report_error_ne (describe : RepositoryError → String) (runner : SchedulerTickRunner)
    (store : σ) (producer : π) (e : RepositoryError) (claimedJobs : List JobRecord) :
    report S P describe runner store producer (.error e) ≠
      report S P describe runner store producer (.ok claimedJobs) := by
  intro h
  simp only [report] at h
  split at h
  · have hresult := congrArg (fun r => r.2.2) h
    cases hresult
  · have hresult := congrArg (fun r => r.2.2) h
    simp at hresult

end SchedulerTickRunner

/-! ## What a runner sees -/

section

variable {T : Jobs} {calls : List TimedCall} {α β : Type} {p : RepositoryMethod α} {sends : Prop}
  {refuses : Jobs → Prop}

/-- A method that would go through on a fresh connection goes through exactly when
no statement has been refused before. -/
theorem works_iff (hp : Session.Orderly p sends refuses) (hsends : sends)
    (hok : ¬ refuses (TimedCall.connection T calls).committed)
    (report : Except RepositoryError α → β)
    (hreport : ∀ a, report (.error .inFailedTransaction) ≠ report (.ok a)) :
    report (p (TimedCall.connection T calls)).1 =
        report (p (.fresh (TimedCall.connection T calls).committed)).1 ↔
      ¬ TimedCall.SomeRefused T calls := by
  have haborted : (TimedCall.connection T calls).aborted = true ↔
      TimedCall.SomeRefused T calls :=
    Session.aborted_iff TimedCall.orderly calls
  rw [← haborted]
  constructor
  · intro hsame hc
    obtain ⟨a, d', hfresh⟩ := hp.served hsends _ hok
    rw [hp.aborted hsends _ hc, hfresh] at hsame
    exact hreport a hsame
  · intro hc
    have hfresh := (Session.after_fresh_or_aborted TimedCall.orderly calls).resolve_right hc
    exact congrArg (fun c => report (p c).1) hfresh

end

/-- **When a database error leaves the repository usable**: exactly when no statement
is sent after one that the server has refused. A runner on the connection works again
exactly when no statement has been refused. -/
theorem usable_after_error_iff {σ π : Type} (S : IdempotencyStore σ) (P : JobProducer π)
    (describe : RepositoryError → String) (T : Jobs) (calls : List TimedCall) :
    (Session.Usable TimedCall.perform T calls ↔
      Session.SilentAfterRefusal TimedCall.perform TimedCall.Sends TimedCall.Refused T calls) ∧
    (∀ (scanner : RetryScanner) (m : Moment) (now : Option ℤ), m.fault 0 = none →
      ((scanner.runOnce describe m now (TimedCall.connection T calls)).1 =
          (scanner.runOnce describe m now
            (.fresh (TimedCall.connection T calls).committed)).1 ↔
        ¬ TimedCall.SomeRefused T calls)) ∧
    (∀ (runner : SchedulerTickRunner) (m : Moment) (store : σ) (producer : π), m.fault 0 = none →
      ((runner.runOnceOn S P describe m store producer (TimedCall.connection T calls)).1 =
          (runner.runOnceOn S P describe m store producer
            (.fresh (TimedCall.connection T calls).committed)).1 ↔
        ¬ TimedCall.SomeRefused T calls)) := by
  refine ⟨Session.usable_iff TimedCall.orderly calls, ?_, ?_⟩
  · intro scanner m now hfault
    have hscan := RepositoryCall.orderly_checked m scanner.maxJobsPerScan fun T =>
      RepositorySession.requeueRows T m.executor m.now
        (JobRepository.dueRows T m.executor (now.getD m.clock) scanner.maxJobsPerScan.toNat)
    apply works_iff hscan scanner.maxJobs_pos (by simp [hfault])
      (RetryScanner.report describe (now.getD m.clock))
    intro requeued h
    cases congrArg RetryScannerResult.errors h
  · intro runner m store producer hfault
    have hclaim := RepositoryCall.orderly_checked m runner.maxJobsPerTick fun T =>
      JobRepository.dispatchRows T m.executor m.now
        (JobRepository.schedulableRows T m.executor runner.maxJobsPerTick.toNat)
    apply works_iff hclaim runner.maxJobs_pos (by simp [hfault])
      (SchedulerTickRunner.report S P describe runner store producer)
    exact SchedulerTickRunner.report_error_ne S P describe runner store producer _

/-- A quiet moment: no statement fails for a reason of the server's own. -/
def Moment.quiet : Moment := ⟨0, 0, .quiet, fun _ => none⟩

/-- A job is created twice, and then loaded. -/
def createdTwice : List TimedCall :=
  let create := RepositoryCall.createJob "job" "tenant" 1 "queued" none 3
  [(create, .quiet), (create, .quiet), (.getJob "job", .quiet)]

theorem usable_after_error_iff_createdTwice :
    (Session.Usable TimedCall.perform .empty createdTwice ↔
      Session.SilentAfterRefusal TimedCall.perform TimedCall.Sends TimedCall.Refused .empty
        createdTwice) ∧
    (((RetryScanner.mk 100 (by decide)).runOnce (fun _ => "") .quiet none
          (TimedCall.connection .empty createdTwice)).1 =
        ((RetryScanner.mk 100 (by decide)).runOnce (fun _ => "") .quiet none
          (.fresh (TimedCall.connection .empty createdTwice).committed)).1 ↔
      ¬ TimedCall.SomeRefused .empty createdTwice) :=
  have h := usable_after_error_iff claimedKeys dispatchTopic (fun _ => "") .empty createdTwice
  ⟨h.1, h.2.1 ⟨100, by decide⟩ .quiet none rfl⟩

/-- The second `create_job` is refused, and then so is `get_job`. -/
theorem created_twice_unusable : ¬ Session.Usable TimedCall.perform .empty createdTwice := by
  intro h
  have hraised : Session.Raises
      (TimedCall.perform (.createJob "job" "tenant" 1 "queued" none 3, .quiet)
        ((service TimedCall.perform).after (.fresh .empty) (createdTwice.take 1))).1 :=
    ⟨.server (.row .uniqueViolation), rfl, trivial⟩
  obtain ⟨hsame, -⟩ := h.asFresh (createdTwice.take 1) _ [] (.getJob "job", .quiet) [] _ _ rfl rfl
    rfl hraised
  have hloads := congrArg Except.isOk hsame
  exact absurd hloads (by decide +kernel)

end KernelQ.ControlPlane
