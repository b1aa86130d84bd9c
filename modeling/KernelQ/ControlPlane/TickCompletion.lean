import KernelQ.ControlPlane.TickTurns
import KernelQ.ControlPlane.Api

/-!
# Ticks that reach their last job

The `try` of the loop encloses the publish only. What `dispatch_key` or the store
raises leaves `run_once`, and the jobs behind it stay dispatched without an event. A
tick accounts for every job it has claimed exactly when neither raises for any of
them (`completed_iff`).
-/

namespace KernelQ.ControlPlane

namespace SchedulerTickRunner

open KernelQ.Foundation

variable {σ π : Type} (S : IdempotencyStore σ) (P : JobProducer π)

/-- The jobs whose turn comes in the loop. -/
def attempted (runner : SchedulerTickRunner) : Loop σ π → List JobRecord → List JobRecord
  | _, [] => []
  | l, job :: jobs =>
      match publishJob S P runner l job with
      | .ok l' => job :: attempted runner l' jobs
      | .error _ => [job]

/-- The jobs for which `dispatch_key` or the store raises, each when its turn comes. -/
def Fails (runner : SchedulerTickRunner) (l : Loop σ π) (jobs : List JobRecord) (job : JobRecord) :
    Prop :=
  ∃ pre post l' e, jobs = pre ++ job :: post ∧ publishJobs S P runner l pre = (l', none) ∧
    publishJob S P runner l' job = .error e

/-- The tick returns a result that accounts for every job it has claimed: every job
had its turn, in order, and was published, found a duplicate, or is reported, also
if `dispatch_key` or the store raised for it. -/
def Completed (runner : SchedulerTickRunner) (E : Executor) (now : ℤ) (w : World σ π) : Prop :=
  let claimed := runner.claimedJobs E now w
  let l : Loop σ π := ⟨w.store, w.producer, 0, [], 0⟩
  ∃ result, (runOnce S P runner E now w).2 = .ok result ∧
    result.dispatchedJobIds = claimed.map JobRecord.jobId ∧
    result.dispatchedCount = claimed.length ∧
    attempted S P runner l claimed = claimed ∧
    result.publishedCount + result.duplicateDispatches + result.publishErrors.length =
      result.dispatchedCount ∧
    ∀ job, Fails S P runner l claimed job →
      ∃ error ∈ result.publishErrors, job.jobId.toList <:+: error.toList

/-- The store raises at no job's turn. -/
def StoreAnswers (ttlSeconds : ℤ) : σ → List JobRecord → Prop
  | _, [] => True
  | store, job :: jobs =>
      ∀ key, dispatchKey job.jobId (.int job.retryCount) = .ok key →
        ∃ claimed store', S.tryClaim store key ttlSeconds = .ok (claimed, store') ∧
          StoreAnswers ttlSeconds store' jobs

/-- How many jobs the loop has accounted for. -/
def Loop.accounted (l : Loop σ π) : ℕ :=
  l.publishedCount + l.duplicateDispatches + l.publishErrors.length

variable {S P} {runner : SchedulerTickRunner} {l l' : Loop σ π} {job : JobRecord}
  {jobs : List JobRecord}

/-- **A turn that goes through**: the job is published, a duplicate, or reported. -/
theorem publishJob_of_claim {key : String} {claimed : Bool} {store' : σ}
    (hkey : dispatchKey job.jobId (.int job.retryCount) = .ok key)
    (hclaim : S.tryClaim l.store key runner.dispatchDedupeTtlSeconds = .ok (claimed, store')) :
    ∃ l', publishJob S P runner l job = .ok l' ∧ l'.store = store' ∧
      l'.accounted = l.accounted + 1 := by
  obtain ⟨e, -, -, hnone⟩ | ⟨o, key', claimed', l', -, hjob, hkey', hclaim', -, hone, hcounts⟩ :=
    publishJob_turn S P runner l job
  · exact absurd hclaim (hnone key _ hkey)
  · obtain ⟨hpublished, hfailed, hduplicate⟩ := hcounts
    rw [hkey] at hkey'
    cases hkey'
    rw [hclaim, Except.ok.injEq, Prod.mk.injEq] at hclaim'
    refine ⟨l', hjob, hclaim'.2.symm, ?_⟩
    rw [Loop.accounted, Loop.accounted, hpublished, hfailed, hduplicate]
    omega

/-- **Where no job's turn raises**, every job has one, and is accounted for. -/
theorem publishJobs_of_answers (hid : ∀ job ∈ jobs, strip job.jobId ≠ "")
    (h : StoreAnswers S runner.dispatchDedupeTtlSeconds l.store jobs) :
    ∃ l', publishJobs S P runner l jobs = (l', none) ∧
      attempted S P runner l jobs = jobs ∧ l'.accounted = l.accounted + jobs.length := by
  induction jobs generalizing l with
  | nil => exact ⟨l, rfl, rfl, rfl⟩
  | cons job jobs ih =>
      have hkey : dispatchKey job.jobId (.int job.retryCount) = .ok _ :=
        attemptKey_of_not_blank "dispatch" (hid job List.mem_cons_self) job.retryCount
      obtain ⟨claimed, store', hclaim, hrest⟩ := h _ hkey
      obtain ⟨l₁, hjob, rfl, hone⟩ := publishJob_of_claim (P := P) hkey hclaim
      obtain ⟨l₂, hjobs, hall, hcount⟩ := ih (fun j hj => hid j (List.mem_cons_of_mem _ hj)) hrest
      refine ⟨l₂, ?_, ?_, ?_⟩
      · rw [publishJobs, hjob]
        exact hjobs
      · rw [attempted, hjob]
        exact congrArg (job :: ·) hall
      · rw [hcount, hone, List.length_cons]
        omega

/-- A loop that reaches its end met no blank id and no exception of the store. -/
theorem answers_of_publishJobs (h : publishJobs S P runner l jobs = (l', none)) :
    (∀ job ∈ jobs, strip job.jobId ≠ "") ∧
      StoreAnswers S runner.dispatchDedupeTtlSeconds l.store jobs := by
  induction jobs generalizing l with
  | nil =>
      constructor
      · intro job hjob
        cases hjob
      · trivial
  | cons job jobs ih =>
      rw [publishJobs] at h
      cases hjob : publishJob S P runner l job with
      | error e =>
          rw [hjob] at h
          cases h
      | ok l₁ =>
          rw [hjob] at h
          obtain ⟨key, hkey, hclaim⟩ := claim_of_publishJob hjob
          obtain ⟨hids, hrest⟩ := ih h
          constructor
          · intro j hj
            rcases List.mem_cons.mp hj with rfl | hj
            · exact (attemptKey_eq_ok_iff.mp hkey).1
            · exact hids j hj
          · intro key' hkey'
            rw [hkey] at hkey'
            cases hkey'
            exact ⟨_, l₁.store, hclaim, hrest⟩

/-- Where nothing raises, no job fails. -/
theorem not_fails_of_publishJobs (h : publishJobs S P runner l jobs = (l', none)) :
    ¬ Fails S P runner l jobs job := by
  rintro ⟨pre, post, l₁, e, rfl, hpre, hjob⟩
  induction pre generalizing l with
  | nil =>
      cases hpre
      rw [List.nil_append, publishJobs, hjob] at h
      cases h
  | cons j pre ih =>
      rw [List.cons_append, publishJobs] at h
      rw [publishJobs] at hpre
      cases hj : publishJob S P runner l j with
      | error e' =>
          rw [hj] at h
          cases h
      | ok l₂ =>
          rw [hj] at h hpre
          exact ih h hpre

/-- **When a tick accounts for every job it has claimed**: exactly when no claimed job
has a blank id and the store raises for none of them. -/
theorem completed_iff {σ π : Type} (S : IdempotencyStore σ) (P : JobProducer π)
    (runner : SchedulerTickRunner) (E : Executor) (now : ℤ) (w : World σ π) :
    Completed S P runner E now w ↔
      (∀ job ∈ runner.claimedJobs E now w, strip job.jobId ≠ "") ∧
        StoreAnswers S runner.dispatchDedupeTtlSeconds w.store (runner.claimedJobs E now w) := by
  obtain ⟨T', hclaim⟩ := claimSchedulableJobs_eq_ok runner E now w
  constructor
  · rintro ⟨result, hresult, -⟩
    rw [runOnce, hclaim] at hresult
    cases hloop : publishJobs S P runner ⟨w.store, w.producer, 0, [], 0⟩
        (runner.claimedJobs E now w) with
    | mk l raised =>
        cases raised with
        | none => exact answers_of_publishJobs hloop
        | some e =>
            simp only [hloop] at hresult
            cases hresult
  · rintro ⟨hid, hanswers⟩
    obtain ⟨l, hloop, hall, hcount⟩ :=
      publishJobs_of_answers (P := P) (l := ⟨w.store, w.producer, 0, [], 0⟩) hid hanswers
    refine ⟨_, by rw [runOnce, hclaim]; simp only [hloop]; rfl, rfl, rfl, hall, ?_, ?_⟩
    · simpa [Loop.accounted] using hcount
    · intro job hfails
      exact absurd hfails (not_fails_of_publishJobs hloop)

/-- A job with a blank id, and one of a lower priority. -/
def blankFirst : Jobs :=
  let body (priority : ℕ) : EnqueueJobRequest :=
    ⟨"tenant", priority, none, none, EnqueueJobRequest.tenant_ne⟩
  match Api.enqueueJob .empty 10 " " (body 2) with
  | .error _ => .empty
  | .ok (T, _) =>
      match Api.enqueueJob T 20 "job" (body 1) with
      | .error _ => .empty
      | .ok (T', _) => T'

/-- The tick claims both jobs, and the blank one ends it. -/
theorem blank_first_not_completed :
    ((⟨10, defaultDispatchDedupeTtlSeconds, defaultMaxJobs_pos⟩ : SchedulerTickRunner).claimedJobs
        .quiet 30 (⟨blankFirst, [], []⟩ : World (List String) (List DispatchEvent))).map JobRecord.jobId =
      [" ", "job"] ∧
    ¬ Completed claimedKeys dispatchTopic
      ⟨10, defaultDispatchDedupeTtlSeconds, defaultMaxJobs_pos⟩ .quiet 30 ⟨blankFirst, [], []⟩ := by
  refine ⟨by decide +kernel, ?_⟩
  rintro ⟨result, hresult, -⟩
  have hreturns := congrArg Except.isOk hresult
  change _ = true at hreturns
  exact absurd hreturns (by decide +kernel)

end SchedulerTickRunner

end KernelQ.ControlPlane
