import KernelQ.ControlPlane.ConcurrentClaims
import KernelQ.ControlPlane.ConcurrentRunners
import KernelQ.ControlPlane.TickTurns

/-!
# Calls that nobody interrupts

The laws of calls side by side are about models that take a call apart: an API request into its
check and its write, a claim of jobs into its choice and its commit, `mark_job_dispatched` into
its read and its guarded `UPDATE`, a tick and a delivery into their operations. Where nothing
comes between the parts, each is the function of the code again (`calls_alone`); and the ties
that a query leaves open are all covered by the ranks of the model.
-/

namespace KernelQ.ControlPlane

open KernelQ.Foundation
open SchedulerTickRunner (World)

namespace CallsAlone

/-- An endpoint of `api.py`: the table it leaves, and whether it answers. -/
def endpoint (T : Jobs) (now : ℤ) : Request → Jobs × Except HTTPException Unit
  | .transition .cancel jobId =>
      ((Api.cancelJob T now jobId).1, (Api.cancelJob T now jobId).2.map fun _ => ())
  | .transition .retry jobId =>
      ((Api.retryJob T now jobId).1, (Api.retryJob T now jobId).2.map fun _ => ())
  | .enqueue jobId body =>
      match Api.enqueueJob T now jobId body with
      | .ok (T', _) => (T', .ok ())
      | .error e => (T, .error e)

/-- A request whose write follows its check at once is the endpoint; one that is refused writes
nothing. -/
structure RequestAlone (s : System) (q : Request) (now : ℤ) : Prop where
  passed : q.check s.jobs = .ok () →
    System.machine.run s [.request q, .write s.pending.length now] =
      some { s with jobs := (endpoint s.jobs now q).1 }
  refused : ∀ e, q.check s.jobs = .error e → System.machine.run s [.request q] = some s ∧
    endpoint s.jobs now q = (s.jobs, .error e)

/-- A claim whose commit follows its choice at once is `claim_schedulable_jobs`. -/
def ClaimAlone (s : ConcurrentClaims.State) (E : Executor) (tx : ℕ) (limit now : ℤ) : Prop :=
  ∃ t u jobs, s.step (.claimBegin tx limit E.rank) = some t ∧
    t.stepReturning (.claimCommit tx E now) = some (u, jobs) ∧
    JobRepository.claimSchedulableJobs s.jobs { E with locked := s.locked } now limit =
      .ok (u.jobs, jobs)

/-- A read whose `UPDATE` follows at once is `mark_job_dispatched`; one that finds no queued row
sends none. -/
structure MarkAlone (s : ConcurrentClaims.State) (jobId : String) (now : ℤ) : Prop where
  queued : s.Queued jobId → ∃ t, s.step (.markRead jobId) = some t ∧
    t.stepReturning (.markWrite s.marks.length now) =
      some ({ s with jobs := (JobRepository.markJobDispatched s.jobs now jobId).1 },
        (JobRepository.markJobDispatched s.jobs now jobId).2.toList)
  other : ¬ s.Queued jobId → s.step (.markRead jobId) = some s ∧
    JobRepository.markJobDispatched s.jobs now jobId = (s.jobs, none)

section

variable {σ π η ε : Type} (S : IdempotencyStore σ) (P : JobProducer π)

/-- The program of a tick, run alone over the claimed jobs, is `run_once`. -/
def TickAlone (runner : SchedulerTickRunner) (E : Executor) (now : ℤ) (w : World σ π) : Prop :=
  ∃ T', JobRepository.claimSchedulableJobs w.jobs E now runner.maxJobsPerTick =
      .ok (T', runner.claimedJobs E now w) ∧
    SchedulerTickRunner.runOnce S P runner E now w =
      let r := (ConcurrentRunners.runOnce runner (runner.claimedJobs E now w) :
        ConcurrentRunners.Program Empty _).run (ConcurrentRunners.answerTick S P)
          (w.store, w.producer)
      (⟨T', r.1.1, r.1.2⟩, r.2)

/-- What a tick counts is what became of the claimed jobs, each in its turn. -/
structure TurnsCounted (runner : SchedulerTickRunner) (E : Executor) (now : ℤ) (w : World σ π)
    (result : SchedulerTickResult) : Prop where
  jobs : (runner.tickTurns S P E now w).map (fun x => x.job.jobId) = result.dispatchedJobIds
  published : result.publishedCount =
    (runner.tickTurns S P E now w).countP fun x => x.outcome.isPublished
  failed : result.publishErrors.length =
    (runner.tickTurns S P E now w).countP fun x => x.outcome.isPublishFailed
  duplicate : result.duplicateDispatches =
    (runner.tickTurns S P E now w).countP fun x => x.outcome.isDuplicate

/-- The program of a delivery, run alone, is `process_message`. -/
def DeliveryAlone (handle : ResultHandler η ε) (repr : Json → String) (consumer : ℕ) (ttl : ℤ)
    (runner : ResultConsumerRunner σ η) (message : ResultMessage) : Prop :=
  (ConcurrentRunners.processMessage repr consumer ttl message).run
      (ConcurrentRunners.answerDelivery S handle) runner =
    runner.processMessage S handle repr ttl message

end

/-- Whatever `ORDER BY … LIMIT` may return of the rows, some rank chooses it. -/
def ChoicesCovered (rows : List JobRow) (limit : ℕ) : Prop :=
  ∀ L : List JobRow, L.Perm rows →
    L.Pairwise (fun a b => b.priority < a.priority ∨
      a.priority = b.priority ∧ a.createdAt ≤ b.createdAt) →
    ∃ rank, claimOrder.selectTop rank limit rows = L.take limit

/-- **Without interruption**, the parts are the whole. -/
structure Alone : Prop where
  request : ∀ s q now, RequestAlone s q now
  claim : ∀ (s : ConcurrentClaims.State) E tx limit now, 0 < limit →
    tx ∉ s.claims.map ConcurrentClaims.OpenClaim.tx → ClaimAlone s E tx limit now
  choice : ∀ (T : Jobs) (p : JobRow → Bool) limit, ChoicesCovered (T.rows.filter p) limit
  mark : ∀ (s : ConcurrentClaims.State) jobId now, s.locked jobId = false → MarkAlone s jobId now
  tick : ∀ {σ π : Type} (S : IdempotencyStore σ) (P : JobProducer π) runner E now w,
    TickAlone S P runner E now w
  turns : ∀ {σ π : Type} (S : IdempotencyStore σ) (P : JobProducer π) runner E now w w' result,
    SchedulerTickRunner.runOnce S P runner E now w = (w', .ok result) →
      TurnsCounted S P runner E now w result
  delivery : ∀ {σ η ε : Type} (S : IdempotencyStore σ) (handle : ResultHandler η ε) repr consumer
    ttl runner message, DeliveryAlone S handle repr consumer ttl runner message

/-! ## Requests -/

theorem write_eq_endpoint {T : Jobs} {q : Request} (h : q.check T = .ok ()) (now : ℤ) :
    q.write T now = (endpoint T now q).1 := by
  cases q with
  | transition q jobId =>
      change Api.transitionCheck T jobId q.target = .ok () at h
      have hwhole : Api.transitionJob q T now jobId =
          Api.transitionWrite T now jobId q.target q.message := by
        rw [Api.transitionJob, h]
      rw [Request.write, ← hwhole]
      cases q <;> rfl
  | enqueue jobId body =>
      change Api.enqueueCheck T jobId body = .ok () at h
      have hwhole : Api.enqueueJob T now jobId body = Api.enqueueInsert T now jobId body := by
        rw [Api.enqueueJob, h]
        rfl
      rw [Request.write, endpoint, hwhole]
      cases Api.enqueueInsert T now jobId body <;> rfl

theorem endpoint_of_refused {T : Jobs} {q : Request} {e : HTTPException}
    (h : q.check T = .error e) (now : ℤ) : endpoint T now q = (T, .error e) := by
  cases q with
  | transition q jobId =>
      change Api.transitionCheck T jobId q.target = .error e at h
      have hwhole : Api.transitionJob q T now jobId = (T, .error e) := by
        rw [Api.transitionJob, h]
      cases q with
      | cancel => rw [endpoint, Api.cancelJob, hwhole]; rfl
      | retry => rw [endpoint, Api.retryJob, hwhole]; rfl
  | enqueue jobId body =>
      change Api.enqueueCheck T jobId body = .error e at h
      rw [endpoint, Api.enqueueJob, h]
      rfl

theorem requestAlone (s : System) (q : Request) (now : ℤ) : RequestAlone s q now where
  passed h := by
    have hrequest : s.step (.request q) = some { s with pending := s.pending ++ [q] } := by
      simp only [System.step, h]
    have hwrite : System.step { s with pending := s.pending ++ [q] }
        (.write s.pending.length now) =
          some { s with jobs := (endpoint s.jobs now q).1 } := by
      simp only [System.step, List.getElem?_concat_length, Option.map_some,
        write_eq_endpoint h now]
      rw [List.eraseIdx_append_of_length_le (le_refl _), Nat.sub_self, List.eraseIdx_cons_zero,
        List.append_nil]
    exact System.machine.run_cons_iff.mpr
      ⟨_, hrequest, System.machine.run_cons_iff.mpr ⟨_, hwrite, rfl⟩⟩
  refused e h := by
    have hrequest : s.step (.request q) = some s := by
      simp only [System.step, h]
    exact ⟨System.machine.run_cons_iff.mpr ⟨_, hrequest, rfl⟩, endpoint_of_refused h now⟩

/-! ## Claims -/

theorem markAlone (s : ConcurrentClaims.State) (jobId : String) (now : ℤ)
    (hfree : s.locked jobId = false) : MarkAlone s jobId now where
  queued := by
    rintro ⟨r, hr, hstate⟩
    have hget : JobRepository.getJob s.jobs jobId = some (rowToRecord r) := by
      rw [JobRepository.getJob, hr]
      rfl
    have hqueued : ¬ (rowToRecord r).state ≠ JobState.queued.value := not_not.mpr hstate
    have hread : s.step (.markRead jobId) = some { s with marks := s.marks ++ [jobId] } := by
      simp only [ConcurrentClaims.State.step, ConcurrentClaims.State.stepReturning, hget,
        if_neg hqueued, Option.map_some]
    have hmark : JobRepository.markJobDispatched s.jobs now jobId =
        JobRepository.dispatchIfQueued s.jobs now jobId := by
      simp only [JobRepository.markJobDispatched, hget, if_neg hqueued]
    refine ⟨_, hread, ?_⟩
    have hlocked : ConcurrentClaims.State.locked { s with marks := s.marks ++ [jobId] } jobId =
        false := hfree
    simp only [ConcurrentClaims.State.stepReturning, List.getElem?_concat_length, hlocked,
      Bool.false_eq_true, if_false, hmark]
    rw [List.eraseIdx_append_of_length_le (le_refl _), Nat.sub_self, List.eraseIdx_cons_zero,
      List.append_nil]
  other := by
    intro hnot
    cases hfind : s.jobs.find? jobId with
    | none =>
        have hget : JobRepository.getJob s.jobs jobId = none := by
          rw [JobRepository.getJob, hfind]
          rfl
        constructor
        · simp only [ConcurrentClaims.State.step, ConcurrentClaims.State.stepReturning, hget,
            Option.map_some]
        · simp only [JobRepository.markJobDispatched, hget]
    | some r =>
        have hget : JobRepository.getJob s.jobs jobId = some (rowToRecord r) := by
          rw [JobRepository.getJob, hfind]
          rfl
        have hstate : (rowToRecord r).state ≠ JobState.queued.value :=
          fun h => hnot ⟨r, hfind, h⟩
        constructor
        · simp only [ConcurrentClaims.State.step, ConcurrentClaims.State.stepReturning, hget,
            if_pos hstate, Option.map_some]
        · simp only [JobRepository.markJobDispatched, hget, if_pos hstate]

theorem choicesCovered (T : Jobs) (p : JobRow → Bool) (limit : ℕ) :
    ChoicesCovered (T.rows.filter p) limit := by
  intro L hperm hsorted
  obtain ⟨rank, hrank⟩ := claimOrder.exists_rank_sort_eq (T.nodup_rows.filter p) hperm
    (hsorted.imp fun h => by simpa [claimOrder, SortKey.lexicographic] using h)
  exact ⟨rank, congrArg (List.take limit) hrank⟩

/-! ## Ticks -/

theorem tickAlone {σ π : Type} (S : IdempotencyStore σ) (P : JobProducer π)
    (runner : SchedulerTickRunner) (E : Executor) (now : ℤ) (w : World σ π) :
    TickAlone S P runner E now w := by
  obtain ⟨T', hclaim⟩ := runner.claimSchedulableJobs_eq_ok E now w
  exact ⟨T', hclaim, ConcurrentRunners.run_runOnce S P runner hclaim⟩

theorem turnsCounted {σ π : Type} (S : IdempotencyStore σ) (P : JobProducer π)
    (runner : SchedulerTickRunner) (E : Executor) (now : ℤ) (w w' : World σ π)
    (result : SchedulerTickResult)
    (h : SchedulerTickRunner.runOnce S P runner E now w = (w', .ok result)) :
    TurnsCounted S P runner E now w result := by
  obtain ⟨T', hclaim⟩ := runner.claimSchedulableJobs_eq_ok E now w
  rw [SchedulerTickRunner.runOnce, hclaim] at h
  dsimp only at h
  cases hloop : SchedulerTickRunner.publishJobs S P runner ⟨w.store, w.producer, 0, [], 0⟩
      (runner.claimedJobs E now w) with
  | mk l o =>
      rw [hloop] at h
      cases o with
      | some e => cases h
      | none =>
          obtain ⟨hpublished, hfailed, hduplicate⟩ :=
            SchedulerTickRunner.publishJobs_counts hloop
          cases h
          refine ⟨?_, ?_, ?_, ?_⟩
          · have hjobs : (runner.tickTurns S P E now w).map SchedulerTickRunner.Turn.job =
                runner.claimedJobs E now w :=
              SchedulerTickRunner.turns_map_job _ _
            show (SchedulerTickRunner.tickTurns S P runner E now w).map _ = _
            conv_rhs => rw [← hjobs]
            rw [List.map_map]
            rfl
          · exact hpublished.trans (Nat.zero_add _)
          · exact hfailed.trans (Nat.zero_add _)
          · exact hduplicate.trans (Nat.zero_add _)

end CallsAlone

/-- **Calls that nobody interrupts** are the functions of the code. -/
theorem calls_alone : CallsAlone.Alone where
  request := CallsAlone.requestAlone
  claim s E tx limit now hlimit htx :=
    ConcurrentClaims.begin_commit_eq s E tx limit now hlimit htx
  choice := CallsAlone.choicesCovered
  mark := CallsAlone.markAlone
  tick := CallsAlone.tickAlone
  turns := CallsAlone.turnsCounted
  delivery S handle repr consumer ttl runner message :=
    ConcurrentRunners.run_processMessage S handle repr consumer ttl runner message

/-- Two jobs wait: a client cancels one, and a claim takes the better one. -/
theorem calls_alone_enqueued :
    ∃ s, ConcurrentClaims.machine.run (.start .empty) ConcurrentClaims.SideBySide.enqueued =
        some s ∧
      System.machine.run ⟨s.jobs, []⟩ [.request (.transition .cancel "low"), .write 0 20] =
        some ⟨(Api.cancelJob s.jobs 20 "low").1, []⟩ ∧
      ∃ t u jobs, s.step (.claimBegin 1 1 Executor.quiet.rank) = some t ∧
        t.stepReturning (.claimCommit 1 .quiet 30) = some (u, jobs) ∧
        jobs.map JobRecord.jobId = ["high"] ∧
        JobRepository.claimSchedulableJobs s.jobs { Executor.quiet with locked := s.locked } 30 1 =
          .ok (u.jobs, jobs) := by
  have hall : ((ConcurrentClaims.machine.run (.start .empty)
      ConcurrentClaims.SideBySide.enqueued).any fun s =>
        decide ((Request.check s.jobs (.transition .cancel "low")).toOption = some ()) &&
          s.claims.isEmpty &&
          ((s.step (.claimBegin 1 1 Executor.quiet.rank)).any fun t =>
            (t.stepReturning (.claimCommit 1 .quiet 30)).any fun r =>
              decide (r.2.map JobRecord.jobId = ["high"]))) = true := by
    decide +kernel
  obtain ⟨s, hs, hall⟩ := (Option.any_eq_true _ _).mp hall
  obtain ⟨hfirst, hclaim⟩ := Bool.and_eq_true_iff.mp hall
  obtain ⟨hcheck, hnone⟩ := Bool.and_eq_true_iff.mp hfirst
  have hclaims : s.claims = [] := List.isEmpty_iff.mp hnone
  have hpassed : Request.check s.jobs (.transition .cancel "low") = .ok () := by
    cases h : Request.check s.jobs (.transition .cancel "low") with
    | ok u => rfl
    | error e =>
        rw [h] at hcheck
        cases of_decide_eq_true hcheck
  refine ⟨s, hs, (calls_alone.request ⟨s.jobs, []⟩ _ 20).passed hpassed, ?_⟩
  obtain ⟨t, u, jobs, hbegin, hcommit, hwhole⟩ :=
    calls_alone.claim s .quiet 1 1 30 (by decide) (by rw [hclaims]; decide)
  refine ⟨t, u, jobs, hbegin, hcommit, ?_, hwhole⟩
  obtain ⟨t', ht', hreturned⟩ := (Option.any_eq_true _ _).mp hclaim
  obtain rfl : t' = t := Option.some.inj (ht'.symm.trans hbegin)
  obtain ⟨r, hr, hids⟩ := (Option.any_eq_true _ _).mp hreturned
  obtain rfl : r = (u, jobs) := Option.some.inj (hr.symm.trans hcommit)
  exact of_decide_eq_true hids

end KernelQ.ControlPlane
