import KernelQ.ControlPlane.SchedulerTick

/-!
# The turns of a tick

The result of `run_once` counts; it does not say which job came to what. `turns` does,
job by job, with the store each turn found, and the counters are those of the turns
(`publishJobs_counts`).
-/

namespace KernelQ.ControlPlane

namespace SchedulerTickRunner

open KernelQ.Foundation

/-- What came of a claimed job. -/
inductive TurnOutcome
  | published
  | publishFailed (error : PyException)
  | duplicate
  | raised (error : PyException)
  | unreached

namespace TurnOutcome

def isPublished : TurnOutcome → Bool
  | published => true
  | _ => false

def isPublishFailed : TurnOutcome → Bool
  | publishFailed _ => true
  | _ => false

def isDuplicate : TurnOutcome → Bool
  | duplicate => true
  | _ => false

def callsProducer (o : TurnOutcome) : Bool :=
  o.isPublished || o.isPublishFailed

end TurnOutcome

structure Turn (σ : Type) where
  job : JobRecord
  ttlSeconds : ℤ
  /-- As the turn found it; for a job that is not reached, as the loop left it. -/
  store : σ
  outcome : TurnOutcome

variable {σ π : Type} (S : IdempotencyStore σ) (P : JobProducer π)

/-- What `claim_schedulable_jobs` hands to the loop. -/
def claimedJobs (runner : SchedulerTickRunner) (E : Executor) (now : ℤ) (w : World σ π) :
    List JobRecord :=
  match JobRepository.claimSchedulableJobs w.jobs E now runner.maxJobsPerTick with
  | .ok (_, jobs) => jobs
  | .error _ => []

def turnOutcome (runner : SchedulerTickRunner) (l : Loop σ π) (job : JobRecord) : TurnOutcome :=
  match dispatchKey job.jobId (.int job.retryCount) with
  | .error e => .raised e
  | .ok key =>
      match S.tryClaim l.store key runner.dispatchDedupeTtlSeconds with
      | .error e => .raised e
      | .ok (false, _) => .duplicate
      | .ok (true, _) =>
          match (P.publish l.producer (.ofJob job)).2 with
          | .ok () => .published
          | .error e => .publishFailed e

def turns (runner : SchedulerTickRunner) : Loop σ π → List JobRecord → List (Turn σ)
  | _, [] => []
  | l, job :: jobs =>
      ⟨job, runner.dispatchDedupeTtlSeconds, l.store, turnOutcome S P runner l job⟩ ::
        match publishJob S P runner l job with
        | .ok l' => turns runner l' jobs
        | .error _ =>
            jobs.map fun job => ⟨job, runner.dispatchDedupeTtlSeconds, l.store, .unreached⟩

/-- The turns of one `run_once`. -/
def tickTurns (runner : SchedulerTickRunner) (E : Executor) (now : ℤ) (w : World σ π) :
    List (Turn σ) :=
  turns S P runner ⟨w.store, w.producer, 0, [], 0⟩ (runner.claimedJobs E now w)

/-- One `run_once`: whose it is, and the table it meets. -/
structure Tick (π : Type) where
  runner : SchedulerTickRunner
  producer : JobProducer π
  jobs : Jobs
  executor : Executor
  now : ℤ

variable {S P} {runner : SchedulerTickRunner} {l l' : Loop σ π} {job : JobRecord}
  {jobs : List JobRecord} {o : Option PyException}

/-- A runner's limit is one that the repository takes. -/
theorem claimSchedulableJobs_eq_ok (runner : SchedulerTickRunner) (E : Executor) (now : ℤ)
    (w : World σ π) :
    ∃ T', JobRepository.claimSchedulableJobs w.jobs E now runner.maxJobsPerTick =
      .ok (T', runner.claimedJobs E now w) := by
  rw [claimedJobs, JobRepository.claimSchedulableJobs, if_neg (not_le.mpr runner.maxJobs_pos)]
  exact ⟨_, rfl⟩

/-- **One turn**: it raises, for want of a key or of an answer of the store, or the counter of
its outcome goes up by one and no other. -/
theorem publishJob_turn (S : IdempotencyStore σ) (P : JobProducer π) (runner : SchedulerTickRunner)
    (l : Loop σ π) (job : JobRecord) :
    (∃ e, turnOutcome S P runner l job = .raised e ∧ publishJob S P runner l job = .error e ∧
      ∀ key r, dispatchKey job.jobId (.int job.retryCount) = .ok key →
        S.tryClaim l.store key runner.dispatchDedupeTtlSeconds ≠ .ok r) ∨
    ∃ o key claimed l', turnOutcome S P runner l job = o ∧ publishJob S P runner l job = .ok l' ∧
      dispatchKey job.jobId (.int job.retryCount) = .ok key ∧
      S.tryClaim l.store key runner.dispatchDedupeTtlSeconds = .ok (claimed, l'.store) ∧
      o.callsProducer = claimed ∧
      o.isPublished.toNat + o.isPublishFailed.toNat + o.isDuplicate.toNat = 1 ∧
      l'.publishedCount = l.publishedCount + o.isPublished.toNat ∧
      l'.publishErrors.length = l.publishErrors.length + o.isPublishFailed.toNat ∧
      l'.duplicateDispatches = l.duplicateDispatches + o.isDuplicate.toNat := by
  cases hkey : dispatchKey job.jobId (.int job.retryCount) with
  | error e =>
      left
      simp only [turnOutcome, publishJob, bind, Except.bind, hkey]
      refine ⟨e, rfl, rfl, ?_⟩
      intro key r hkey'
      cases hkey'
  | ok key =>
      cases hclaim : S.tryClaim l.store key runner.dispatchDedupeTtlSeconds with
      | error e =>
          left
          simp only [turnOutcome, publishJob, bind, Except.bind, hkey, hclaim]
          refine ⟨e, rfl, rfl, ?_⟩
          intro key' r hkey'
          cases hkey'
          rw [hclaim]
          intro hok
          cases hok
      | ok r =>
          right
          obtain ⟨claimed, store⟩ := r
          -- the producer is called for a key that was free, and only then
          cases claimed with
          | false =>
              simp only [turnOutcome, publishJob, bind, Except.bind, hkey, hclaim]
              exact ⟨.duplicate, key, false, _, rfl, rfl, rfl, hclaim, rfl, rfl, rfl, rfl, rfl⟩
          | true =>
              rcases hpublish : P.publish l.producer (.ofJob job) with ⟨producer, e | u⟩
              · simp only [turnOutcome, publishJob, bind, Except.bind, hkey, hclaim, hpublish,
                  if_true]
                exact ⟨.publishFailed e, key, true, _, rfl, rfl, rfl, hclaim, rfl, rfl, rfl,
                  List.length_append, rfl⟩
              · simp only [turnOutcome, publishJob, bind, Except.bind, hkey, hclaim, hpublish,
                  if_true]
                exact ⟨.published, key, true, _, rfl, rfl, rfl, hclaim, rfl, rfl, rfl, rfl, rfl⟩

/-- A turn that raises ends the loop. -/
theorem publishJob_error_iff {e : PyException} :
    publishJob S P runner l job = .error e ↔ turnOutcome S P runner l job = .raised e := by
  obtain ⟨e', ho, hjob, -⟩ | ⟨o, key, claimed, l', ho, hjob, -, -, -, hone, -⟩ :=
    publishJob_turn S P runner l job
  · rw [ho, hjob, Except.error.injEq, TurnOutcome.raised.injEq]
  · rw [ho, hjob]
    refine iff_of_false nofun ?_
    rintro rfl
    cases hone

/-- A turn that goes through had a key, and the store answered. -/
theorem claim_of_publishJob (h : publishJob S P runner l job = .ok l') :
    ∃ key, dispatchKey job.jobId (.int job.retryCount) = .ok key ∧
      S.tryClaim l.store key runner.dispatchDedupeTtlSeconds =
        .ok ((turnOutcome S P runner l job).callsProducer, l'.store) := by
  obtain ⟨e, -, hjob, -⟩ | ⟨o, key, claimed, l₁, rfl, hjob, hkey, hclaim, rfl, -⟩ :=
    publishJob_turn S P runner l job
  · rw [h] at hjob
    cases hjob
  · rw [h] at hjob
    cases hjob
    exact ⟨key, hkey, hclaim⟩

/-- The counter of the outcome goes up by one, and no other. -/
theorem publishJob_counts (h : publishJob S P runner l job = .ok l') :
    l'.publishedCount = l.publishedCount + (turnOutcome S P runner l job).isPublished.toNat ∧
    l'.publishErrors.length =
      l.publishErrors.length + (turnOutcome S P runner l job).isPublishFailed.toNat ∧
    l'.duplicateDispatches =
      l.duplicateDispatches + (turnOutcome S P runner l job).isDuplicate.toNat := by
  obtain ⟨e, -, hjob, -⟩ | ⟨o, key, claimed, l₁, rfl, hjob, -, -, -, -, hcounts⟩ :=
    publishJob_turn S P runner l job
  · rw [h] at hjob
    cases hjob
  · rw [h] at hjob
    cases hjob
    exact hcounts

theorem turns_map_job (l : Loop σ π) (jobs : List JobRecord) :
    (turns S P runner l jobs).map Turn.job = jobs := by
  induction jobs generalizing l with
  | nil => rfl
  | cons job jobs ih =>
      rw [turns, List.map_cons]
      refine congrArg (job :: ·) ?_
      cases publishJob S P runner l job with
      | ok l' => exact ih l'
      | error e =>
          show List.map _ (List.map _ jobs) = jobs
          rw [List.map_map]
          exact List.map_id' jobs

/-- Where a turn comes from: it was not reached, or it went as the loop found things then. -/
theorem turn_of_mem {x : Turn σ} (hx : x ∈ turns S P runner l jobs) :
    x.ttlSeconds = runner.dispatchDedupeTtlSeconds ∧
      (x.outcome = .unreached ∨
        ∃ l', x.store = l'.store ∧ x.outcome = turnOutcome S P runner l' x.job) := by
  induction jobs generalizing l with
  | nil => cases hx
  | cons job jobs ih =>
      rw [turns] at hx
      rcases List.mem_cons.mp hx with rfl | hx
      · refine ⟨rfl, Or.inr ⟨l, rfl, ?_⟩⟩
        dsimp only
      · cases hjob : publishJob S P runner l job with
        | error e =>
            rw [hjob] at hx
            obtain ⟨job', -, rfl⟩ := List.mem_map.mp hx
            exact ⟨rfl, Or.inl rfl⟩
        | ok l₁ =>
            rw [hjob] at hx
            exact ih hx

theorem countP_turns_of_ok (h : publishJob S P runner l job = .ok l') (p : TurnOutcome → Bool) :
    (turns S P runner l (job :: jobs)).countP (fun x => p x.outcome) =
      (p (turnOutcome S P runner l job)).toNat +
        (turns S P runner l' jobs).countP fun x => p x.outcome := by
  rw [turns, h, List.countP_cons, Nat.add_comm]
  cases p (turnOutcome S P runner l job) <;> rfl

/-- The jobs behind one that raises come to nothing. -/
theorem countP_turns_of_error {e : PyException} (h : publishJob S P runner l job = .error e)
    {p : TurnOutcome → Bool} (hraised : p (.raised e) = false) (hunreached : p .unreached = false) :
    (turns S P runner l (job :: jobs)).countP (fun x => p x.outcome) = 0 := by
  rw [turns, h, List.countP_eq_zero, publishJob_error_iff.mp h]
  intro x hx
  rcases List.mem_cons.mp hx with rfl | hx
  · rw [hraised]
    exact Bool.false_ne_true
  · obtain ⟨job, -, rfl⟩ := List.mem_map.mp hx
    rw [hunreached]
    exact Bool.false_ne_true

/-- **The counters are those of the turns.** -/
theorem publishJobs_counts (h : publishJobs S P runner l jobs = (l', o)) :
    l'.publishedCount =
      l.publishedCount + (turns S P runner l jobs).countP (fun x => x.outcome.isPublished) ∧
    l'.publishErrors.length = l.publishErrors.length +
      (turns S P runner l jobs).countP (fun x => x.outcome.isPublishFailed) ∧
    l'.duplicateDispatches =
      l.duplicateDispatches + (turns S P runner l jobs).countP (fun x => x.outcome.isDuplicate) := by
  induction jobs generalizing l with
  | nil =>
      cases h
      exact ⟨rfl, rfl, rfl⟩
  | cons job jobs ih =>
      rw [publishJobs] at h
      cases hjob : publishJob S P runner l job with
      | error e =>
          rw [hjob] at h
          cases h
          rw [countP_turns_of_error hjob rfl rfl, countP_turns_of_error hjob rfl rfl,
            countP_turns_of_error hjob rfl rfl]
          exact ⟨rfl, rfl, rfl⟩
      | ok l₁ =>
          rw [hjob] at h
          obtain ⟨hpublished, hfailed, hduplicate⟩ := ih h
          obtain ⟨hpublished₁, hfailed₁, hduplicate₁⟩ := publishJob_counts hjob
          rw [countP_turns_of_ok hjob, countP_turns_of_ok hjob, countP_turns_of_ok hjob]
          rw [hpublished, hfailed, hduplicate, hpublished₁, hfailed₁, hduplicate₁]
          exact ⟨Nat.add_assoc .., Nat.add_assoc .., Nat.add_assoc ..⟩

end SchedulerTickRunner

end KernelQ.ControlPlane
