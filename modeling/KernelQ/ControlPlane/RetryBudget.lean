import KernelQ.ControlPlane.RepositorySteps
import Mathlib.Data.List.Infix

/-!
# The retry budget

A job is dispatched, fails, waits, is queued again, and so on, until its budget is
used up. A run is any sequence of repository calls, each on a connection of its own,
and of worker results that are applied. `Phase` says where in that loop the row of a
job is, in terms of how often it has been claimed and how many results and retryable
failures there have been.
-/

namespace KernelQ.ControlPlane

open KernelQ.Foundation

namespace RepositoryStep

/-! ## What is counted -/

/-- A claim that returns the job. -/
def claims (jobId : String) : RepositoryStep × StepReply → Bool
  | (.call (.claimSchedulableJobs _) _, .called (.ok (.records jobs))) =>
      jobs.any fun job => decide (job.jobId = jobId)
  | _ => false

/-- A result of the job that is applied. -/
def applies (jobId : String) : RepositoryStep × StepReply → Bool
  | (.result event _ _, .handled (.ok ())) => decide (event.1.jobId = jobId)
  | _ => false

/-- A retryable failure of the job that is applied. -/
def failsRetryably (jobId : String) : RepositoryStep × StepReply → Bool
  | (.result event _ _, .handled (.ok ())) =>
      decide (event.1.jobId = jobId ∧ event.1.status = "retryable_failure")
  | _ => false

/-- How many of the steps are such. -/
def count (p : RepositoryStep × StepReply → Bool) (T : Jobs) (steps : List RepositoryStep) : ℕ :=
  (service.dialogue T steps).countP p

/-- The step and its reply, after the steps before it. -/
def replied (T : Jobs) (before : List RepositoryStep) (step : RepositoryStep) :
    RepositoryStep × StepReply :=
  (step, (perform (service.after T before) step).2)

theorem count_snoc (p : RepositoryStep × StepReply → Bool) (T : Jobs)
    (steps : List RepositoryStep) (step : RepositoryStep) :
    count p T (steps ++ [step]) = count p T steps + (p (replied T steps step)).toNat := by
  rw [count, Service.dialogue_append, List.countP_append]
  show _ + List.countP p [replied T steps step] = _
  rw [List.countP_singleton]
  cases p (replied T steps step) <;> rfl

theorem after_snoc (T : Jobs) (steps : List RepositoryStep) (step : RepositoryStep) :
    service.after T (steps ++ [step]) = (perform (service.after T steps) step).1 :=
  Service.after_append service T steps [step]

/-! ## The loop of one job -/

/-- Claims, retry scans and worker results. -/
def OfLoop : RepositoryStep → Prop
  | .call (.claimSchedulableJobs _) _ => True
  | .call (.requeueDueRetries _ _) _ => True
  | .result _ _ _ => True
  | _ => False

/-- The job's row is changed by nothing else, and no result is applied without a
dispatch of its own. -/
structure Loop (T : Jobs) (jobId : String) (steps : List RepositoryStep) : Prop where
  only : ∀ pre step post, steps = pre ++ step :: post → step.OfLoop ∨
    (perform (service.after T pre) step).1.find? jobId = (service.after T pre).find? jobId
  answered : ∀ pre post, steps = pre ++ post →
    count (applies jobId) T pre ≤ count (claims jobId) T pre

theorem Loop.left {T : Jobs} {jobId : String} {steps later : List RepositoryStep}
    (h : Loop T jobId (steps ++ later)) : Loop T jobId steps where
  only pre step post hsplit := h.only pre step (post ++ later) (by simp [hsplit])
  answered pre post hsplit := h.answered pre (post ++ later) (by simp [hsplit])

/-- What a step does to the job's row, and what it counts as. -/
inductive RowStep (jobId : String) (x : RepositoryStep × StepReply) : JobRow → JobRow → Prop
  | idle (r : JobRow) (hclaims : claims jobId x = false) (happlies : applies jobId x = false) :
      RowStep jobId x r r
  | claimed {r : JobRow} {now : ℤ} (hstate : r.state = JobState.queued.value)
      (hclaims : claims jobId x = true) (happlies : applies jobId x = false) :
      RowStep jobId x r ((setDispatched now).set r)
  | scanned {r : JobRow} {stamp : ℤ} (hstate : r.state = JobState.retryScheduled.value)
      (hclaims : claims jobId x = false) (happlies : applies jobId x = false) :
      RowStep jobId x r ((setState JobState.queued.value stamp).set r)
  | applied {r : JobRow} {event : ValidResult} {now clock : ℤ}
      (hx : x = (.result event now clock, .handled (.ok ()))) (hjob : event.1.jobId = jobId) :
      RowStep jobId x r ((ResultStateHandler.resultUpdate event.1 now clock).set r)

variable {T : Jobs} {jobId : String} {r r' : JobRow} {step : RepositoryStep}

/-- A claim returns the job exactly when it has dispatched its row. -/
theorem rowStep_claim (hr : T.find? jobId = some r) (limit : ℤ) (m : Moment) :
    ∃ r', (perform T (.call (.claimSchedulableJobs limit) m)).1.find? jobId = some r' ∧
      RowStep jobId (.call (.claimSchedulableJobs limit) m,
        (perform T (.call (.claimSchedulableJobs limit) m)).2) r r' := by
  rw [perform]
  rcases RepositoryCall.perform_claimSchedulableJobs m limit T with
    ⟨e, c, hcall, hc⟩ | ⟨T', jobs, hclaim, hcall⟩
  · rw [hcall]
    refine ⟨r, ?_, .idle r rfl rfl⟩
    show c.committed.find? jobId = some r
    rw [hc]
    exact hr
  · rw [hcall]
    obtain ⟨-, hfind, hperm⟩ := JobRepository.claimSchedulableJobs_eq_ok hclaim
    have hmem : (jobs.any fun job => decide (job.jobId = jobId)) = true ↔
        jobId ∈ (JobRepository.schedulableRows T m.executor limit.toNat).map JobRow.jobId := by
      simp only [List.any_eq_true, decide_eq_true_eq, hperm.mem_iff, List.mem_map,
        exists_exists_and_eq_and]
      rfl
    obtain ⟨hrow, rfl⟩ := KeyedTable.find?_eq_some_iff.mp hr
    have hafter := hfind r.jobId
    rw [hr, Option.map_some] at hafter
    by_cases hin : r.jobId ∈
        (JobRepository.schedulableRows T m.executor limit.toNat).map JobRow.jobId
    · rw [if_pos hin] at hafter
      have hsel : r ∈ JobRepository.schedulableRows T m.executor limit.toNat :=
        (T.key_mem_map_iff (fun r hr => (JobRepository.mem_schedulableRows hr).1) hrow).mp hin
      exact ⟨_, hafter, .claimed (JobRepository.mem_schedulableRows hsel).2.1 (hmem.mpr hin) rfl⟩
    · rw [if_neg hin] at hafter
      exact ⟨r, hafter, .idle r (Bool.eq_false_iff.mpr fun h => hin (hmem.mp h)) rfl⟩

theorem rowStep_scan (hr : T.find? jobId = some r) (now limit : ℤ) (m : Moment) :
    ∃ r', (perform T (.call (.requeueDueRetries now limit) m)).1.find? jobId = some r' ∧
      RowStep jobId (.call (.requeueDueRetries now limit) m,
        (perform T (.call (.requeueDueRetries now limit) m)).2) r r' := by
  rw [perform]
  rcases RepositoryCall.perform_requeueDueRetries m now limit T with
    ⟨e, c, hcall, hc⟩ | ⟨T', jobIds, hscan, hcall⟩
  · rw [hcall]
    refine ⟨r, ?_, .idle r rfl rfl⟩
    show c.committed.find? jobId = some r
    rw [hc]
    exact hr
  · rw [hcall]
    obtain ⟨-, hfind⟩ := JobRepository.requeueDueRetries_eq_ok hscan
    obtain ⟨hrow, rfl⟩ := KeyedTable.find?_eq_some_iff.mp hr
    have hafter := hfind r.jobId
    rw [hr, Option.map_some] at hafter
    by_cases hin : r.jobId ∈ (JobRepository.dueRows T m.executor now limit.toNat).map JobRow.jobId
    · rw [if_pos hin] at hafter
      have hsel : r ∈ JobRepository.dueRows T m.executor now limit.toNat :=
        (T.key_mem_map_iff (fun r hr => (JobRepository.mem_dueRows hr).1) hrow).mp hin
      have hdue := JobRepository.isDue_iff.mp (JobRepository.mem_dueRows hsel).2.1
      exact ⟨_, hafter, .scanned hdue.1 rfl rfl⟩
    · rw [if_neg hin] at hafter
      exact ⟨r, hafter, .idle r rfl rfl⟩

theorem rowStep_result (hr : T.find? jobId = some r) (event : ValidResult) (now clock : ℤ) :
    ∃ r', (perform T (.result event now clock)).1.find? jobId = some r' ∧
      RowStep jobId (.result event now clock, (perform T (.result event now clock)).2) r r' := by
  show ∃ r', (ResultStateHandler.handle T now clock event.1).1.find? jobId = some r' ∧
    RowStep jobId (.result event now clock,
      .handled (ResultStateHandler.handle T now clock event.1).2) r r'
  rw [ResultStateHandler.find?_handle _ _ _ event.2, hr]
  by_cases hjob : jobId = event.1.jobId
  · have hok := (ResultStateHandler.handle_ok_iff T now clock event.2).mpr ⟨r, hjob ▸ hr⟩
    rw [if_pos hjob, hok]
    exact ⟨_, rfl, .applied rfl hjob.symm⟩
  · rw [if_neg hjob]
    refine ⟨r, rfl, .idle r rfl ?_⟩
    cases (ResultStateHandler.handle T now clock event.1).2 with
    | ok u => simp [applies, Ne.symm hjob]
    | error e => rfl

/-- **One step of the loop**, seen from the job's row. -/
theorem rowStep (hr : T.find? jobId = some r)
    (h : step.OfLoop ∨ (perform T step).1.find? jobId = T.find? jobId) :
    ∃ r', (perform T step).1.find? jobId = some r' ∧
      RowStep jobId (step, (perform T step).2) r r' := by
  cases step with
  | result event now clock => exact rowStep_result hr event now clock
  | call k m =>
      cases k with
      | claimSchedulableJobs limit => exact rowStep_claim hr limit m
      | requeueDueRetries now limit => exact rowStep_scan hr now limit m
      | _ => exact ⟨r, (h.resolve_left id).trans hr, .idle r rfl rfl⟩

/-! ## Where in the loop a job is -/

/-- The row of a job with the budget `m`, by the number of its claims, of its results,
and of its retryable failures. -/
inductive Phase (m : ℕ) : ℕ → ℕ → ℕ → JobRow → Prop
  | waiting {n : ℕ} {r : JobRow} (hcount : r.retryCount = n) (hmax : r.maxRetries = m)
      (hle : n ≤ m) : Phase m n n n r
  | running {n : ℕ} {r : JobRow} (hstate : r.state = JobState.dispatched.value)
      (hcount : r.retryCount = n) (hmax : r.maxRetries = m) (hle : n ≤ m) :
      Phase m (n + 1) n n r
  | ended {n f : ℕ} {r : JobRow} (hclaim : r.state ≠ JobState.queued.value)
      (hscan : r.state ≠ JobState.retryScheduled.value) (hle : n ≤ m + 1) : Phase m n n f r

/-- A row that nothing claims or scans stays as it is until there is a result. -/
theorem RowStep.eq_of_ended {x : RepositoryStep × StepReply} (h : RowStep jobId x r r')
    (hclaim : r.state ≠ JobState.queued.value) (hscan : r.state ≠ JobState.retryScheduled.value)
    (hx : applies jobId x = false) : r' = r ∧ claims jobId x = false := by
  cases h with
  | idle hclaims _ => exact ⟨rfl, hclaims⟩
  | claimed hstate _ _ => exact absurd hstate hclaim
  | scanned hstate _ _ => exact absurd hstate hscan
  | applied heq hjob =>
      subst heq
      simp [applies, hjob] at hx

/-- A retryable failure of a dispatched job uses up one retry, or the budget is
exhausted. -/
theorem resultUpdate_retryable {event : WorkerResultEvent} (now clock : ℤ)
    (hstatus : event.status = "retryable_failure") {m n : ℕ} (hcount : r.retryCount = n)
    (hmax : r.maxRetries = m) (hle : n ≤ m) :
    (n < m ∧ ((ResultStateHandler.resultUpdate event now clock).set r).state =
          JobState.retryScheduled.value ∧
        ((ResultStateHandler.resultUpdate event now clock).set r).retryCount = n + 1 ∧
        ((ResultStateHandler.resultUpdate event now clock).set r).maxRetries = m) ∨
      n = m ∧ ((ResultStateHandler.resultUpdate event now clock).set r).state =
          JobState.deadLettered.value ∧
        ((ResultStateHandler.resultUpdate event now clock).set r).retryCount = m := by
  rw [ResultStateHandler.resultUpdate, if_pos hstatus]
  subst hcount
  subst hmax
  rcases Nat.lt_or_eq_of_le hle with hlt | heq
  · refine Or.inl ⟨hlt, ?_, ?_, rfl⟩
    · simp [setRetryPolicy, hlt]
    · simp [setRetryPolicy, hlt]
  · refine Or.inr ⟨heq, ?_, ?_⟩
    · simp [setRetryPolicy, heq]
    · simp [setRetryPolicy, heq]

/-- Any other result ends the loop. -/
theorem resultUpdate_final {event : WorkerResultEvent} (now clock : ℤ)
    (hstatus : event.status ≠ "retryable_failure") (r : JobRow) :
    ((ResultStateHandler.resultUpdate event now clock).set r).state ≠ JobState.queued.value ∧
      ((ResultStateHandler.resultUpdate event now clock).set r).state ≠
        JobState.retryScheduled.value := by
  rw [ResultStateHandler.resultUpdate, if_neg hstatus]
  split <;> simp [setState]

theorem failsRetryably_of_not_applies {x : RepositoryStep × StepReply}
    (h : applies jobId x = false) : failsRetryably jobId x = false := by
  unfold applies at h
  unfold failsRetryably
  split at h
  · simp [of_decide_eq_false h]
  · rfl

/-- **One step of the loop**: the phase goes with the counts. -/
theorem phase_step {m c n f : ℕ} {x : RepositoryStep × StepReply} (hphase : Phase m c n f r)
    (hstep : RowStep jobId x r r')
    (hanswered : n + (applies jobId x).toNat ≤ c + (claims jobId x).toNat) :
    Phase m (c + (claims jobId x).toNat) (n + (applies jobId x).toNat)
      (f + (failsRetryably jobId x).toNat) r' := by
  cases hstep with
  | idle hclaims happlies =>
      simpa [hclaims, happlies, failsRetryably_of_not_applies happlies] using hphase
  | claimed hstate hclaims happlies =>
      simp only [hclaims, happlies, failsRetryably_of_not_applies happlies, Bool.toNat_true,
        Bool.toNat_false, Nat.add_zero]
      cases hphase with
      | waiting hcount hmax hle => exact .running rfl hcount hmax hle
      | running hstate' _ _ _ =>
          rw [hstate'] at hstate
          exact absurd hstate (by simp)
      | ended hclaim _ _ => exact absurd hstate hclaim
  | scanned hstate hclaims happlies =>
      simp only [hclaims, happlies, failsRetryably_of_not_applies happlies, Bool.toNat_false,
        Nat.add_zero]
      cases hphase with
      | waiting hcount hmax hle => exact .waiting hcount hmax hle
      | running hstate' _ _ _ =>
          rw [hstate'] at hstate
          exact absurd hstate (by simp)
      | ended _ hscan _ => exact absurd hstate hscan
  | applied hx hjob =>
      rename_i event now clock
      subst hx
      have happlies : applies jobId (.result event now clock, .handled (.ok ())) = true := by
        simp [applies, hjob]
      have hclaims : claims jobId (.result event now clock, .handled (.ok ())) = false := rfl
      rw [happlies, hclaims] at hanswered ⊢
      simp only [Bool.toNat_true, Bool.toNat_false, Nat.add_zero] at hanswered ⊢
      -- where nothing runs, every claim has its result already, and this one is too many
      cases hphase with
      | waiting _ _ _ => omega
      | ended _ _ _ => omega
      | running hstate hcount hmax hle =>
          by_cases hstatus : event.1.status = "retryable_failure"
          · have hfails : failsRetryably jobId (.result event now clock, .handled (.ok ())) =
                true := by
              simp [failsRetryably, hjob, hstatus]
            rw [hfails]
            rcases resultUpdate_retryable now clock hstatus hcount hmax hle with
              ⟨hlt, -, hcount', hmax'⟩ | ⟨heq, hdead, -⟩
            · exact .waiting hcount' hmax' hlt
            · refine .ended ?_ ?_ (Nat.succ_le_succ hle)
              · rw [hdead]
                simp
              · rw [hdead]
                simp
          · obtain ⟨hclaim, hscan⟩ := resultUpdate_final now clock hstatus r
            exact .ended hclaim hscan (Nat.succ_le_succ hle)

/-- A job as `create_job` leaves it is at the start of its loop. -/
theorem phase_created {state : String} (h : JobRepository.Created state r) :
    Phase r.maxRetries 0 0 0 r :=
  .waiting h.retryCount rfl (Nat.zero_le _)

/-- **Any run of the loop**: the row is there, in the phase that goes with the counts. -/
theorem phase_after {state : String} (hr : T.find? jobId = some r)
    (hcreated : JobRepository.Created state r) {steps : List RepositoryStep}
    (hloop : Loop T jobId steps) :
    ∃ r', (service.after T steps).find? jobId = some r' ∧
      Phase r.maxRetries (count (claims jobId) T steps) (count (applies jobId) T steps)
        (count (failsRetryably jobId) T steps) r' := by
  induction steps using List.reverseRecOn with
  | nil => exact ⟨r, hr, phase_created hcreated⟩
  | append_singleton steps step ih =>
      obtain ⟨r₁, hr₁, hphase⟩ := ih hloop.left
      obtain ⟨r₂, hr₂, hstep⟩ := rowStep hr₁ (hloop.only steps step [] rfl)
      have hanswered := hloop.answered (steps ++ [step]) [] (by simp)
      rw [count_snoc, count_snoc] at hanswered
      refine ⟨r₂, ?_, ?_⟩
      · rw [after_snoc]
        exact hr₂
      · rw [count_snoc, count_snoc, count_snoc]
        exact phase_step hphase hstep hanswered

/-! ## The budget is exact -/

/-- No step is both a claim and a result. -/
theorem claims_of_applies {x : RepositoryStep × StepReply} (h : applies jobId x = true) :
    claims jobId x = false := by
  unfold applies at h
  split at h
  · rfl
  · cases h

/-- A row that is dead-lettered, with every claim answered, is never moved again. -/
theorem frozen {pre : List RepositoryStep} (hr : (service.after T pre).find? jobId = some r)
    (hstate : r.state = JobState.deadLettered.value)
    (hcounts : count (applies jobId) T pre = count (claims jobId) T pre)
    {mid : List RepositoryStep} (hloop : Loop T jobId (pre ++ mid)) :
    (service.after T (pre ++ mid)).find? jobId = some r ∧
      count (applies jobId) T (pre ++ mid) = count (claims jobId) T (pre ++ mid) := by
  induction mid using List.reverseRecOn with
  | nil =>
      rw [List.append_nil]
      exact ⟨hr, hcounts⟩
  | append_singleton mid step ih =>
      rw [← List.append_assoc] at hloop ⊢
      obtain ⟨hrow, hsame⟩ := ih hloop.left
      obtain ⟨r', hr', hstep⟩ := rowStep hrow (hloop.only (pre ++ mid) step [] rfl)
      have hanswered := hloop.answered (pre ++ mid ++ [step]) [] (by simp)
      rw [count_snoc, count_snoc] at hanswered ⊢
      have hresult : applies jobId (replied T (pre ++ mid) step) = false := by
        by_contra h
        have happlies := Bool.not_eq_false _ ▸ h
        rw [happlies, claims_of_applies happlies] at hanswered
        simp only [Bool.toNat_true, Bool.toNat_false] at hanswered
        omega
      obtain ⟨rfl, hclaims⟩ := hstep.eq_of_ended (by simp [hstate]) (by simp [hstate]) hresult
      refine ⟨?_, ?_⟩
      · rw [after_snoc]
        exact hr'
      · have hclaims : claims jobId (replied T (pre ++ mid) step) = false := hclaims
        rw [hresult, hclaims, hsame]

/-- **A retryable failure**: the row waits for a retry, or the budget is exhausted. -/
theorem retryable_failure_spec {state : String} (hr : T.find? jobId = some r)
    (hcreated : JobRepository.Created state r) {pre : List RepositoryStep} {event : ValidResult}
    {now clock : ℤ} (hloop : Loop T jobId (pre ++ [.result event now clock]))
    (hjob : event.1.jobId = jobId) (hstatus : event.1.status = "retryable_failure") :
    ∃ f r', count (failsRetryably jobId) T (pre ++ [.result event now clock]) = f ∧
      (service.after T (pre ++ [.result event now clock])).find? jobId = some r' ∧
      (f ≤ r.maxRetries ∧ r'.state = JobState.retryScheduled.value ∧ r'.retryCount = f ∨
        f = r.maxRetries + 1 ∧ r'.state = JobState.deadLettered.value ∧
          r'.retryCount = r.maxRetries ∧
          count (applies jobId) T (pre ++ [.result event now clock]) =
            count (claims jobId) T (pre ++ [.result event now clock])) := by
  obtain ⟨r₁, hr₁, hphase⟩ := phase_after hr hcreated hloop.left
  obtain ⟨r₂, hr₂, hstep⟩ := rowStep hr₁ (hloop.only pre _ [] rfl)
  have hok := (ResultStateHandler.handle_ok_iff (service.after T pre) now clock event.2).mpr
    ⟨r₁, hjob ▸ hr₁⟩
  have hreplied : replied T pre (.result event now clock) =
      (.result event now clock, .handled (.ok ())) := by
    rw [← hok]
    rfl
  have hrow : (service.after T (pre ++ [.result event now clock])).find? jobId =
      some ((ResultStateHandler.resultUpdate event.1 now clock).set r₁) := by
    rw [after_snoc]
    show (ResultStateHandler.handle _ now clock event.1).1.find? jobId = _
    rw [ResultStateHandler.find?_handle _ _ _ event.2, if_pos hjob.symm, hr₁]
    rfl
  have hanswered := hloop.answered _ [] (List.append_nil _).symm
  rw [count_snoc, count_snoc, hreplied] at hanswered
  rw [count_snoc, count_snoc, count_snoc, hreplied, hrow]
  simp only [applies, claims, failsRetryably, hjob, hstatus, and_self, decide_true,
    Bool.toNat_true, Bool.toNat_false, Nat.add_zero] at hanswered ⊢
  refine ⟨_, _, rfl, rfl, ?_⟩
  generalize count (claims jobId) T pre = c at hphase hanswered ⊢
  generalize count (applies jobId) T pre = n at hphase hanswered ⊢
  generalize count (failsRetryably jobId) T pre = f at hphase ⊢
  -- a result is only applied while the job runs
  cases hphase with
  | waiting _ _ _ => omega
  | ended _ _ _ => omega
  | running _ hcount hmax hle =>
      rcases resultUpdate_retryable now clock hstatus hcount hmax hle with
        ⟨hlt, hstate, hcount', -⟩ | ⟨heq, hstate, hcount'⟩
      · exact Or.inl ⟨hlt, hstate, hcount'⟩
      · exact Or.inr ⟨congrArg (· + 1) heq, hstate, hcount', rfl⟩

/-! ## The bound, whatever is called -/

/-- No row has used up more retries than it has. -/
def WithinBudget (T : Jobs) : Prop :=
  ∀ k r, T.find? k = some r → r.retryCount ≤ r.maxRetries

theorem withinBudget_update (hT : WithinBudget T) {u : JobUpdate}
    (hu : ∀ r, r.retryCount ≤ r.maxRetries → (u.set r).retryCount ≤ (u.set r).maxRetries)
    (q : JobRow → Bool) : WithinBudget (T.update q u) := by
  intro k r hr
  rw [KeyedTable.find?_update] at hr
  obtain ⟨r₀, hr₀, rfl⟩ := Option.map_eq_some_iff.mp hr
  split
  · exact hu r₀ (hT k r₀ hr₀)
  · exact hT k r₀ hr₀

theorem setRetryPolicy_withinBudget (retryAfter now : ℤ) (r : JobRow)
    (h : r.retryCount ≤ r.maxRetries) :
    ((setRetryPolicy retryAfter now).set r).retryCount ≤
      ((setRetryPolicy retryAfter now).set r).maxRetries := by
  show (if r.retryCount < r.maxRetries then r.retryCount + 1 else r.retryCount) ≤ r.maxRetries
  split <;> omega

theorem sets_withinBudget {u : JobUpdate} (hu : Sets step u) (r : JobRow)
    (h : r.retryCount ≤ r.maxRetries) : (u.set r).retryCount ≤ (u.set r).maxRetries := by
  cases hu with
  | scheduleRetryFromWorkerResult jobId retryDelaySeconds m =>
      exact setRetryPolicy_withinBudget _ _ r h
  | result event now clock =>
      rw [ResultStateHandler.resultUpdate]
      split
      · exact setRetryPolicy_withinBudget _ _ r h
      · split <;> exact h
  | _ => exact h

/-- **Every step keeps the bound.** -/
theorem perform_withinBudget (step : RepositoryStep) (hT : WithinBudget T) :
    WithinBudget (perform T step).1 := by
  have hwritten := written T step
  generalize (perform T step).1 = T' at hwritten ⊢
  cases hwritten with
  | same => exact hT
  | created h =>
      obtain ⟨row, -, -, hcreated, -, hfind⟩ := JobRepository.createJob_eq_ok h
      intro k r hr
      rw [hfind] at hr
      split at hr
      · cases hr
        rw [hcreated.retryCount]
        exact Nat.zero_le _
      · exact hT k r hr
  | deleted jobId m =>
      intro k r hr
      rw [KeyedTable.find?_delete] at hr
      split at hr
      · cases hr
      · exact hT k r hr
  | updated q hu => exact withinBudget_update hT (sets_withinBudget hu) q

/-! ## The law -/

/-- What the budget `m` of a job means for a run: the `f`-th retryable failure leads to
the `f`-th retry as long as there is one, the one after that dead-letters the job for
good, and the job is claimed once more often than it may be retried. -/
structure BudgetExact (T : Jobs) (jobId : String) (m : ℕ) (steps : List RepositoryStep) : Prop where
  retried : ∀ pre event now clock post, steps = pre ++ .result event now clock :: post →
    event.1.jobId = jobId → event.1.status = "retryable_failure" →
    count (failsRetryably jobId) T (pre ++ [.result event now clock]) ≤ m →
    ∃ r, (service.after T (pre ++ [.result event now clock])).find? jobId = some r ∧
      r.state = JobState.retryScheduled.value ∧
      r.retryCount = count (failsRetryably jobId) T (pre ++ [.result event now clock])
  exhausted : ∀ pre event now clock post, steps = pre ++ .result event now clock :: post →
    event.1.jobId = jobId → event.1.status = "retryable_failure" →
    count (failsRetryably jobId) T (pre ++ [.result event now clock]) = m + 1 →
    ∃ r, r.state = JobState.deadLettered.value ∧ r.retryCount = m ∧
      ∀ mid later, post = mid ++ later →
        (service.after T (pre ++ .result event now clock :: mid)).find? jobId = some r
  claimed : count (claims jobId) T steps ≤ m + 1

theorem budgetExact {state : String} (hr : T.find? jobId = some r)
    (hcreated : JobRepository.Created state r) {steps : List RepositoryStep}
    (hloop : Loop T jobId steps) : BudgetExact T jobId r.maxRetries steps where
  retried pre event now clock post hsplit hjob hstatus hcount := by
    rw [hsplit, List.append_cons] at hloop
    obtain ⟨f, r', hf, hr', ⟨-, hstate, hretry⟩ | ⟨hover, -⟩⟩ :=
      retryable_failure_spec hr hcreated hloop.left hjob hstatus
    · exact ⟨r', hr', hstate, hf ▸ hretry⟩
    · omega
  exhausted pre event now clock post hsplit hjob hstatus hcount := by
    rw [hsplit, List.append_cons] at hloop
    obtain ⟨f, r', hf, hr', ⟨hle, -⟩ | ⟨-, hstate, hretry, hcounts⟩⟩ :=
      retryable_failure_spec hr hcreated hloop.left hjob hstatus
    · omega
    · refine ⟨r', hstate, hretry, ?_⟩
      rintro mid later rfl
      rw [← List.append_assoc] at hloop
      rw [List.append_cons]
      exact (frozen hr' hstate hcounts hloop.left).1
  claimed := by
    obtain ⟨r', -, hphase⟩ := phase_after hr hcreated hloop
    generalize count (claims jobId) T steps = c at hphase ⊢
    generalize count (applies jobId) T steps = n at hphase
    generalize count (failsRetryably jobId) T steps = f at hphase
    cases hphase with
    | waiting _ _ hle => exact Nat.le_succ_of_le hle
    | running _ _ _ hle => exact Nat.succ_le_succ hle
    | ended _ _ hle => exact hle

end RepositoryStep

open RepositoryStep

/-- **The retry budget is exact**, and no repository method can overdraw it. -/
theorem retry_budget :
    (∀ (T : Jobs) (jobId state : String) (r : JobRow), T.find? jobId = some r →
      JobRepository.Created state r → ∀ steps, Loop T jobId steps →
        BudgetExact T jobId r.maxRetries steps) ∧
    (∀ steps : List RepositoryStep, ∀ r ∈ (service.after .empty steps).rows,
      0 ≤ r.retryCount ∧ r.retryCount ≤ r.maxRetries) := by
  constructor
  · intro T jobId state r hr hcreated steps hloop
    exact budgetExact hr hcreated hloop
  · intro steps r hr
    have hbound : WithinBudget (service.after .empty steps) := by
      apply Service.after_invariant (P := WithinBudget)
      · intro T step hT
        exact perform_withinBudget step hT
      · intro k r hr
        cases hr
    exact ⟨Nat.zero_le _, hbound r.jobId r (KeyedTable.find?_of_mem hr)⟩

namespace Scenario

/-- A moment `t`, at which the server does what it is asked. -/
def moment (t : ℤ) : Moment := ⟨t, t, .quiet, fun _ => none⟩

/-- A job with one retry. -/
def oneRetry : Jobs :=
  service.after .empty [.call (.createJob "job" "tenant" 1 "queued" none 1) (moment 10)]

/-- It is dispatched, fails, is queued again, and fails again. -/
def failsTwice : List RepositoryStep :=
  [.call (.claimSchedulableJobs 1) (moment 20), .result retryable 30 30,
    .call (.requeueDueRetries 100 1) (moment 100), .call (.claimSchedulableJobs 1) (moment 110),
    .result retryable 120 120, .call (.claimSchedulableJobs 1) (moment 200)]

end Scenario

theorem retry_budget_failsTwice :
    BudgetExact Scenario.oneRetry "job" 1 Scenario.failsTwice ∧
      ∀ r ∈ (service.after .empty Scenario.failsTwice).rows,
        0 ≤ r.retryCount ∧ r.retryCount ≤ r.maxRetries := by
  obtain ⟨r, hr, hcreated, hmax⟩ : ∃ r, Scenario.oneRetry.find? "job" = some r ∧
      JobRepository.Created "queued" r ∧ r.maxRetries = 1 :=
    ⟨_, rfl, ⟨rfl, rfl, rfl, rfl⟩, rfl⟩
  have hanswered : ∀ pre ∈ Scenario.failsTwice.inits,
      count (applies "job") Scenario.oneRetry pre ≤ count (claims "job") Scenario.oneRetry pre := by
    decide +kernel
  have hloop : Loop Scenario.oneRetry "job" Scenario.failsTwice := by
    constructor
    · intro pre step post hsplit
      have hmem : step ∈ Scenario.failsTwice := by simp [hsplit]
      simp only [Scenario.failsTwice, List.mem_cons, List.not_mem_nil, or_false] at hmem
      rcases hmem with rfl | rfl | rfl | rfl | rfl | rfl <;> exact Or.inl trivial
    · intro pre post hsplit
      exact hanswered pre ((List.mem_inits _ _).mpr ⟨post, hsplit.symm⟩)
  have h := retry_budget
  exact ⟨hmax ▸ h.1 _ _ _ r hr hcreated _ hloop, h.2 _⟩

end KernelQ.ControlPlane
