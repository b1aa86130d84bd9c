import KernelQ.Pipeline.FirstAttempts
import Mathlib.Algebra.Order.BigOperators.Group.List

/-!
# Attempt after attempt

The scripts of the control plane run a process for each tick and for each result, and a process
builds a store of its own; the worker's store is disabled by default. No claim outlives its
process then, and jobs are tried again: where nobody moves a job by hand and no message is
delivered twice, each attempt of a job is executed once, and its row always tells which attempts
have failed (`attempts_counted`). What becomes of the job is the `verdict` on what the executor
says, and no state is a dead end (`attempts_end`).
-/

namespace KernelQ.Pipeline.Scripts

open KernelQ.Foundation KernelQ.ControlPlane
open Worker (ExecutionResult newWorkerResultEvent workerIdentity)

/-! ## The machine -/

/-- The worker, whose store is disabled, gets the message. -/
def work (s : State) (m : Dispatch) (outcome : ExecutionResult) : State :=
  let w := (Worker.processMessage (some (Worker.storelessHandler outcome))
    ⟨⟨[], [], []⟩, 0, 0⟩ m.value).1.world
  { s with
    executions := s.executions ++ w.executed.map fun task => (m.generation, task)
    results := s.results ++ w.published.map fun r => ⟨⟨r.1, r.2⟩, m.generation⟩ }

/-- A tick and the delivery of a result start with a store of their own. -/
def step (repr : Json → String) (s : State) : Action → Option State
  | .tick runner E now => State.step repr { s with dispatchKeys := [] } (.tick runner E now)
  | .deliverDispatch i outcome =>
      if outcome.status ∈ Worker.resultStatuses then
        (s.dispatches[i]?).map fun m => work s m outcome
      else none
  | .deliverResult i now clock =>
      State.step repr { s with resultKeys := [] } (.deliverResult i now clock)
  | a => s.step repr a

def machine (repr : Json → String) : Machine State Action := ⟨step repr⟩

/-! ## What becomes of a job -/

/-- The state that a result puts a job in for good; a failure that may be retried is none. -/
def endState (status : String) : Option JobState :=
  if status = Worker.executionSucceeded then some .succeeded
  else if status = Worker.executionTerminalFailure then some .failed
  else none

/-- The last state of a job of which attempt `k` is next, with that many retries left, and the
number of its last attempt. -/
def verdict (status : ℕ → String) : ℕ → ℕ → JobState × ℕ
  | 0, k => ((endState (status k)).getD .deadLettered, k)
  | budget + 1, k =>
      match endState (status k) with
      | some x => (x, k)
      | none => verdict status budget (k + 1)

/-- The verdict on a job. The executor says `answer` of each attempt. -/
def verdictOf (answer : Generation → ExecutionResult) (r : JobRow) : JobState × ℕ :=
  verdict (fun k => (answer (r.jobId, k)).status) r.maxRetries 0

/-- Where a job is: what its row says, and what its messages say. -/
inductive Standing (answer : Generation → ExecutionResult) (s : State) (r : JobRow) : Prop
  | queued (hstate : r.state = JobState.queued.value)
      (hnew : (r.jobId, r.retryCount) ∉ generations s.dispatches)
  | dispatched (hstate : r.state = JobState.dispatched.value)
      (hsent : (r.jobId, r.retryCount) ∈ generations s.dispatches)
      (hopen : (r.jobId, r.retryCount) ∉ s.applied)
  | waiting (hstate : r.state = JobState.retryScheduled.value) (hdue : r.retryAfter.isSome)
      (hnew : (r.jobId, r.retryCount) ∉ generations s.dispatches)
  | ended {x : JobState} (hstate : r.state = x.value)
      (hx : x = .succeeded ∨ x = .failed ∨ x = .deadLettered)
      (happlied : (r.jobId, r.retryCount) ∈ s.applied)
      (hverdict : verdictOf answer r = (x, r.retryCount))

/-- **A row tells** which attempts were made. -/
structure Attempts (answer : Generation → ExecutionResult) (s : State) (r : JobRow) : Prop where
  standing : Standing answer s r
  within : r.retryCount ≤ r.maxRetries
  failed : ∀ k < r.retryCount, (r.jobId, k) ∈ s.applied ∧
    endState (answer (r.jobId, k)).status = none
  none_ahead : ∀ k, (r.jobId, k) ∈ generations s.dispatches → k ≤ r.retryCount

/-! ## Runs that nobody disturbs -/

/-- Clients only enqueue; the executor says `answer`; no message is delivered once more. -/
def Undisturbed (answer : Generation → ExecutionResult) (s : State) : Action → Prop
  | .request (.transition _ _) => False
  | .requeueDeadLettered _ _ => False
  | .deliverDispatch i outcome => ∀ m ∈ s.dispatches[i]?,
      outcome = answer m.generation ∧ m.generation ∉ s.executions.map Prod.fst
  | .deliverResult i _ _ => ∀ m ∈ s.results[i]?, m.generation ∉ s.applied
  | _ => True

/-- And the table is plain. -/
def Orderly (answer : Generation → ExecutionResult) (s : State) (a : Action) : Prop :=
  Plain s.system.jobs ∧ Undisturbed answer s a

instance (answer : Generation → ExecutionResult) (s : State) :
    ∀ a, Decidable (Undisturbed answer s a)
  | .request (.transition _ _) => isFalse id
  | .request (.enqueue _ _) => isTrue trivial
  | .requeueDeadLettered _ _ => isFalse id
  | .deliverDispatch _ _ => inferInstanceAs (Decidable (∀ m ∈ _, _ ∧ _))
  | .deliverResult _ _ _ => inferInstanceAs (Decidable (∀ m ∈ _, _))
  | .write _ _ => isTrue trivial
  | .scan _ _ _ _ => isTrue trivial
  | .tick _ _ _ => isTrue trivial

instance (answer : Generation → ExecutionResult) (s : State) (a : Action) :
    Decidable (Orderly answer s a) :=
  inferInstanceAs (Decidable (_ ∧ _))

/-- The job still has a way to go. -/
def UnderWay (r : JobRow) : Prop :=
  r.state = JobState.queued.value ∨ r.state = JobState.dispatched.value ∨
    r.state = JobState.retryScheduled.value

/-- The job has got its verdict, and was executed for each attempt up to it, and no other. -/
structure Ended (answer : Generation → ExecutionResult) (s : State) (r : JobRow) : Prop where
  state : r.state = (verdictOf answer r).1.value
  retryCount : r.retryCount = (verdictOf answer r).2
  executed : ∀ k, (r.jobId, k) ∈ s.executions.map Prod.fst ↔ k ≤ r.retryCount

/-- **Attempt after attempt** in a state. -/
structure Counted (answer : Generation → ExecutionResult) (s : State) : Prop where
  attempts : ∀ r ∈ s.system.jobs.rows, Attempts answer s r
  dispatched_once : (generations s.dispatches).Nodup
  executed_once : (s.executions.map Prod.fst).Nodup
  applied_once : s.applied.Nodup
  /-- What was executed is what stands in the row, for an attempt that the row knows of. -/
  executed : ∀ e ∈ s.executions, ∃ r ∈ s.system.jobs.rows, e.1.1 = r.jobId ∧
    e.1.2 ≤ r.retryCount ∧ ∃ m, OfRow r m ∧ Carries m e.2
  ended : ∀ r ∈ s.system.jobs.rows, ¬ UnderWay r → Ended answer s r

/-! ## Verdicts -/

section Verdicts

variable {status : ℕ → String} {x : JobState}

theorem verdict_succ (budget k : ℕ) (h : endState (status k) = none) :
    verdict status (budget + 1) k = verdict status budget (k + 1) := by
  rw [verdict, h]

theorem verdict_of_endState {k : ℕ} (h : endState (status k) = some x) :
    ∀ budget, verdict status budget k = (x, k)
  | 0 => by rw [verdict, h, Option.getD_some]
  | budget + 1 => by rw [verdict, h]

/-- The verdict on failures only. -/
theorem verdict_of_failed {n : ℕ} : ∀ {budget k : ℕ},
    (∀ j, k ≤ j → j < k + n → endState (status j) = none) →
      verdict status (budget + n) k = verdict status budget (k + n) := by
  induction n with
  | zero => exact fun _ => rfl
  | succ n ih =>
      intro budget k h
      rw [← Nat.add_assoc, verdict_succ _ _ (h k le_rfl (by omega)),
        ih fun j hj hlt => h j (by omega) (by omega)]
      congr 1
      omega

end Verdicts

section Rows

variable {answer : Generation → ExecutionResult} {s t : State} {r : JobRow}

/-- Attempts before the last one have failed; the last one has not, or there is none left. -/
theorem verdictOf_eq {x : JobState} (hwithin : r.retryCount ≤ r.maxRetries)
    (hfailed : ∀ k < r.retryCount, endState (answer (r.jobId, k)).status = none)
    (hlast : endState (answer (r.jobId, r.retryCount)).status = some x ∨
      endState (answer (r.jobId, r.retryCount)).status = none ∧
        ¬ r.retryCount < r.maxRetries ∧ x = .deadLettered) :
    verdictOf answer r = (x, r.retryCount) := by
  obtain ⟨budget, hbudget⟩ := Nat.exists_eq_add_of_le' hwithin
  rw [verdictOf, hbudget, verdict_of_failed fun j _ hj => hfailed j (by omega), Nat.zero_add]
  rcases hlast with hend | ⟨hnone, hnot, rfl⟩
  · exact verdict_of_endState hend budget
  · obtain rfl : budget = 0 := by omega
    rw [verdict, hnone, Option.getD_none]

end Rows

/-! ## The invariant -/

/-- The result says what the executor has said. -/
structure Written (answer : Generation → ExecutionResult) (m : Result) : Prop where
  status : (answer m.generation).status ∈ Worker.resultStatuses
  text : ∃ text, (newWorkerResultEvent m.generation.1 (answer m.generation) workerIdentity).toJSON =
    .ok text ∧ m.message.value = text.toUTF8

structure Cycle (answer : Generation → ExecutionResult) (s : State) : Prop where
  table : TableInv s.system
  untouched : Untouched s.system
  posted : ∀ m ∈ s.dispatches, Posted s.system.jobs m
  dispatched_once : (generations s.dispatches).Nodup
  executed : ∀ e ∈ s.executions, ∃ m ∈ s.dispatches, e.1 = m.generation ∧ Carries m e.2
  executed_once : (s.executions.map Prod.fst).Nodup
  written : ∀ m ∈ s.results, Written answer m
  reported : s.results.map Result.generation = s.executions.map Prod.fst
  applied : s.applied ⊆ s.executions.map Prod.fst
  applied_once : s.applied.Nodup
  attempts : ∀ r ∈ s.system.jobs.rows, Attempts answer s r

theorem cycle_start (answer : Generation → ExecutionResult) : Cycle answer .start where
  table := tableInv_start
  untouched q jobId hq := by cases hq
  posted m hm := by cases hm
  dispatched_once := List.nodup_nil
  executed e he := by cases he
  executed_once := List.nodup_nil
  written m hm := by cases hm
  reported := rfl
  applied := List.Subset.refl _
  applied_once := List.nodup_nil
  attempts r hr := by cases hr

section Steps

variable {answer : Generation → ExecutionResult} {s t : State} {r : JobRow} {repr : Json → String}

/-- Neither the row nor the messages of its job have changed. -/
theorem Attempts.mono (h : Attempts answer s r)
    (hdispatches : ∀ k, (r.jobId, k) ∈ generations t.dispatches ↔
      (r.jobId, k) ∈ generations s.dispatches)
    (happlied : ∀ k, (r.jobId, k) ∈ t.applied ↔ (r.jobId, k) ∈ s.applied) :
    Attempts answer t r where
  standing := by
    cases h.standing with
    | queued hstate hnew => exact .queued hstate fun hsent => hnew ((hdispatches _).mp hsent)
    | dispatched hstate hsent hopen =>
        exact .dispatched hstate ((hdispatches _).mpr hsent) fun hg => hopen ((happlied _).mp hg)
    | waiting hstate hdue hnew =>
        exact .waiting hstate hdue fun hsent => hnew ((hdispatches _).mp hsent)
    | ended hstate hx hg hverdict => exact .ended hstate hx ((happlied _).mpr hg) hverdict
  within := h.within
  failed k hk := (h.failed k hk).imp_left (happlied k).mpr
  none_ahead k hk := h.none_ahead k ((hdispatches k).mp hk)

/-- A message has a row. -/
theorem Cycle.row_of_sent (hs : Cycle answer s) {g : Generation}
    (hg : g ∈ generations s.dispatches) :
    strip g.1 ≠ "" ∧ ∃ r, s.system.jobs.find? g.1 = some r := by
  obtain ⟨m, hm, rfl⟩ := List.mem_map.mp hg
  have hposted := hs.posted m hm
  obtain ⟨r, hr, -⟩ := hposted.row
  exact ⟨hposted.sent.notBlank, r, hr⟩

theorem Cycle.sent_of_executed (hs : Cycle answer s) {g : Generation}
    (hg : g ∈ s.executions.map Prod.fst) : g ∈ generations s.dispatches := by
  obtain ⟨e, he, rfl⟩ := List.mem_map.mp hg
  obtain ⟨m, hm, heq, -⟩ := hs.executed e he
  rw [heq]
  exact List.mem_map_of_mem hm

/-- **The steps of the table**: clients add rows, and a scan queues rows that wait. -/
theorem Cycle.onTable (hs : Cycle answer s) {a : Action} (hundisturbed : Undisturbed answer s a)
    (hstep : (a.onTable.bind s.system.step).map (fun system => { s with system }) = some t) :
    Cycle answer t := by
  obtain ⟨system, hsystem, rfl⟩ := Option.map_eq_some_iff.mp hstep
  obtain ⟨b, hb, hbstep⟩ := Option.bind_eq_some_iff.mp hsystem
  have huntouched : Untouched system := by
    refine untouched_of_step hbstep ?_ hs.untouched
    rintro q jobId rfl
    cases a <;> cases hb
    exact hundisturbed
  refine { hs with
    table := hs.table.step hbstep
    untouched := huntouched
    posted := fun m hm => (hs.posted m hm).step hbstep
    attempts := ?_ }
  intro r' hr'
  have hchange := System.step_rowChange hbstep r'.jobId
  rw [KeyedTable.find?_of_mem hr'] at hchange
  generalize ho : s.system.jobs.find? r'.jobId = o at hchange
  have hsame : s.system.jobs.find? r'.jobId = some r' → Attempts answer { s with system } r' :=
    fun h => (hs.attempts r' (KeyedTable.find?_eq_some_iff.mp h).1).mono (fun _ => Iff.rfl)
      fun _ => Iff.rfl
  cases a with
  | request q =>
      cases hb
      cases hchange with
      | same => exact hsame ho
  | write i now =>
      cases hb
      cases hchange with
      | same => exact hsame ho
      | created hi hr htenant =>
          -- a message would have a row
          have hnone : ∀ k, (r'.jobId, k) ∉ generations s.dispatches := by
            intro k hsent
            obtain ⟨-, r, hrow⟩ := hs.row_of_sent hsent
            rw [ho] at hrow
            cases hrow
          refine ⟨.queued hr.state_eq (hnone _), ?_, ?_, fun k hsent => absurd hsent (hnone k)⟩
          · rw [hr.retryCount]
            exact Nat.zero_le _
          · intro k hk
            rw [hr.retryCount] at hk
            exact absurd hk (Nat.not_lt_zero k)
      | written hi => exact absurd (List.mem_of_getElem? hi) (hs.untouched _ _)
  | scan E stamp now limit =>
      cases hb
      cases hchange with
      | same => exact hsame ho
      | scanned hr =>
          rename_i r
          have hold := hs.attempts r (JobRepository.mem_dueRows hr).1
          obtain ⟨hstate, -⟩ := JobRepository.isDue_iff.mp (JobRepository.mem_dueRows hr).2.1
          have hnew : (r.jobId, r.retryCount) ∉ generations s.dispatches := by
            cases hold.standing with
            | queued _ hnew => exact hnew
            | dispatched hstate' =>
                rw [hstate] at hstate'
                exact absurd hstate' (by decide)
            | waiting _ _ hnew => exact hnew
            | ended hstate' hx =>
                rw [hstate] at hstate'
                rcases hx with rfl | rfl | rfl <;> exact absurd hstate' (by decide)
          exact ⟨.queued rfl hnew, hold.within, hold.failed, hold.none_ahead⟩
  | requeueDeadLettered jobId now => exact absurd hundisturbed id
  | tick runner E now => cases hb
  | deliverDispatch i outcome => cases hb
  | deliverResult i now clock => cases hb

/-- **A tick** with a store of its own publishes all that it claims. -/
theorem tick_eq (hplain : Plain s.system.jobs) {runner : SchedulerTickRunner}
    (httl : 0 < runner.dispatchDedupeTtlSeconds) (E : Executor) (now : ℤ) :
    ∃ system keys, s.system.step (.claim E now runner.maxJobsPerTick) = some system ∧
      (∀ k, system.jobs.find? k = (s.system.jobs.find? k).map fun r =>
        if r.jobId ∈ (jobsOf s runner E now).map JobRecord.jobId
        then (setDispatched now).set r else r) ∧
      State.tick { s with dispatchKeys := [] } runner E now =
        { s with
          system
          dispatchKeys := keys
          dispatches := s.dispatches ++ (jobsOf s runner E now).map messageOf } := by
  obtain ⟨T', hclaim, hfind, -⟩ := Dispatching.claim_spec s.system.jobs runner E now
  let d : Dispatching.State := ⟨s.system, [], [], [], []⟩
  have hrun := SchedulerTickRunner.runOnce_of_fresh httl hclaim Dispatching.keyOf
    (fun job hjob => @Dispatching.dispatchKey_claimed d runner E now job hplain.clean hjob)
    (@Dispatching.keys_claimed_nodup d runner E now hplain.clean)
    (fun job _ => List.not_mem_nil) []
  have hmessages : ((jobsOf s runner E now).map DispatchEvent.ofJob).map (fun event =>
      (⟨event, retryCountOf (jobsOf s runner E now) event.jobId⟩ : Dispatch)) =
        (jobsOf s runner E now).map messageOf := by
    rw [List.map_map]
    apply List.map_congr_left
    intro job hjob
    have hcount := retryCountOf_of_mem
      (Dispatching.claimedJobs_ids_nodup s.system.jobs runner E now) hjob
    exact congrArg (Dispatch.mk (DispatchEvent.ofJob job)) hcount
  refine ⟨{ s.system with jobs := T' },
    ((jobsOf s runner E now).map Dispatching.keyOf).reverse ++ [], ?_, hfind, ?_⟩
  · simp only [System.step, System.tableOf, hclaim]
  · rw [State.tick, hrun]
    simp only [List.nil_append, hmessages]

/-- A job that is claimed was queued, and nothing was sent for its attempt. -/
theorem Cycle.of_claimed (hs : Cycle answer s) {runner : SchedulerTickRunner} {E : Executor}
    {now : ℤ} {job : JobRecord} (hjob : job ∈ jobsOf s runner E now) :
    ∃ r ∈ s.system.jobs.rows, r.state = JobState.queued.value ∧ job.jobId = r.jobId ∧
      job.retryCount = r.retryCount ∧
      (r.jobId, r.retryCount) ∉ generations s.dispatches := by
  obtain ⟨r, hr, rfl⟩ := Dispatching.mem_claimedJobs_iff.mp hjob
  obtain ⟨hmem, hstate, -⟩ := JobRepository.mem_schedulableRows hr
  refine ⟨r, hmem, hstate, rfl, rfl, ?_⟩
  cases (hs.attempts r hmem).standing with
  | queued _ hnew => exact hnew
  | dispatched hstate' =>
      rw [hstate] at hstate'
      exact absurd hstate' (by decide)
  | waiting hstate' =>
      rw [hstate] at hstate'
      exact absurd hstate' (by decide)
  | ended hstate' hx =>
      rw [hstate] at hstate'
      rcases hx with rfl | rfl | rfl <;> exact absurd hstate' (by decide)

theorem Cycle.tick (hs : Cycle answer s) (hplain : Plain s.system.jobs)
    {runner : SchedulerTickRunner} (httl : 0 < runner.dispatchDedupeTtlSeconds) (E : Executor)
    (now : ℤ) : Cycle answer (State.tick { s with dispatchKeys := [] } runner E now) := by
  obtain ⟨system, keys, hstep, hfind, htick⟩ := tick_eq hplain httl E now
  rw [htick]
  have hmem_iff : ∀ g, g ∈ generations (s.dispatches ++ (jobsOf s runner E now).map messageOf) ↔
      g ∈ generations s.dispatches ∨
        ∃ job ∈ jobsOf s runner E now, g = (job.jobId, job.retryCount) :=
    fun g => mem_generations_append_iff
  refine { hs with
    table := hs.table.step hstep
    untouched := untouched_of_step hstep (fun q jobId h => by cases h) hs.untouched
    posted := ?_
    dispatched_once := ?_
    executed := ?_
    attempts := ?_ }
  · intro m hm
    rcases List.mem_append.mp hm with hm | hm
    · exact (hs.posted m hm).step hstep
    · obtain ⟨job, hjob, rfl⟩ := List.mem_map.mp hm
      obtain ⟨r, hr, -, hid, -, -⟩ := hs.of_claimed hjob
      exact posted_messageOf hs.table hstep hjob (hid ▸ hplain.clean.1 r hr)
  · rw [generations, List.map_append, List.nodup_append]
    refine ⟨hs.dispatched_once, ?_, ?_⟩
    · rw [List.map_map]
      refine List.Nodup.of_map Prod.fst ?_
      rw [List.map_map]
      exact Dispatching.claimedJobs_ids_nodup s.system.jobs runner E now
    · rintro g hg g' hg' rfl
      rw [List.map_map] at hg'
      obtain ⟨job, hjob, rfl⟩ := List.mem_map.mp hg'
      obtain ⟨r, -, -, hid, hcount, hnew⟩ := hs.of_claimed hjob
      refine hnew ?_
      rw [← hid, ← hcount]
      exact hg
  · intro e he
    obtain ⟨m, hm, hexecuted⟩ := hs.executed e he
    exact ⟨m, List.mem_append_left _ hm, hexecuted⟩
  · intro r' hr'
    have hrow := hfind r'.jobId
    rw [KeyedTable.find?_of_mem hr'] at hrow
    obtain ⟨r, hr, heq⟩ := Option.map_eq_some_iff.mp hrow.symm
    obtain ⟨hmem, hid⟩ := KeyedTable.find?_eq_some_iff.mp hr
    have hold := hs.attempts r hmem
    split at heq
    · -- a message of a claimed job is of its row
      rename_i hclaimed
      obtain ⟨job, hjob, hjobid⟩ := List.mem_map.mp hclaimed
      obtain ⟨r₀, hr₀, hstate, hid₀, hcount, hnew⟩ := hs.of_claimed hjob
      obtain rfl : r₀ = r := s.system.jobs.eq_of_key_eq hr₀ hmem (hid₀.symm.trans hjobid)
      subst heq
      refine ⟨.dispatched rfl ?_ ?_, hold.within, hold.failed, ?_⟩
      · refine (hmem_iff _).mpr (Or.inr ⟨job, hjob, ?_⟩)
        rw [hid₀, hcount]
        rfl
      · exact fun hg => hnew (hs.sent_of_executed (hs.applied hg))
      · intro k hk
        rcases (hmem_iff _).mp hk with hk | ⟨job', hjob', hg⟩
        · exact hold.none_ahead k hk
        · obtain ⟨r₁, hr₁, -, hid₁, hcount₁, -⟩ := hs.of_claimed hjob'
          have hsame : r₁ = r₀ := s.system.jobs.eq_of_key_eq hr₁ hmem
            (hid₁.symm.trans (congrArg Prod.fst hg).symm)
          have hk' : k = job'.retryCount := congrArg Prod.snd hg
          rw [hk', hcount₁, hsame]
          exact le_rfl
    · rename_i hnot
      subst heq
      refine hold.mono (fun k => ?_) fun k => Iff.rfl
      rw [hmem_iff, or_iff_left]
      rintro ⟨job, hjob, hg⟩
      have hjobid : r.jobId = job.jobId := congrArg Prod.fst hg
      rw [hjobid] at hnot
      exact hnot (List.mem_map_of_mem hjob)

/-- **The worker** executes and reports what is in the message. -/
theorem work_eq {m : Dispatch} {outcome : ExecutionResult} {T : Jobs} (hsent : Sent T m)
    (hread : m.Readable) (hstatus : outcome.status ∈ Worker.resultStatuses) :
    ∃ task text, Carries m task ∧
      (newWorkerResultEvent m.event.jobId outcome workerIdentity).toJSON = .ok text ∧
      work s m outcome =
        { s with
          executions := s.executions ++ [(m.generation, task)]
          results := s.results ++ [⟨⟨m.event.jobId, text.toUTF8⟩, m.generation⟩] } := by
  obtain ⟨event, hparse, hvalid, -, hcarries⟩ := parse_sent hsent hread
  have hid : event.jobId = m.event.jobId := hcarries.jobId
  obtain ⟨text, htext, hhandle⟩ := Worker.handle_storeless ⟨[], [], []⟩ 0 0 hvalid hstatus
  rw [hid] at htext
  refine ⟨Worker.DispatchEventHandler.taskOf event, text, hcarries, htext, ?_⟩
  simp only [work, Worker.processMessage, hparse, hhandle, List.map_nil, List.nil_append,
    List.map_cons, hid]

theorem Cycle.work (hs : Cycle answer s) (hplain : Plain s.system.jobs) {m : Dispatch}
    (hm : m ∈ s.dispatches) (hstatus : (answer m.generation).status ∈ Worker.resultStatuses)
    (hnew : m.generation ∉ s.executions.map Prod.fst) :
    Cycle answer (work s m (answer m.generation)) ∧
      ∃ executions results, work s m (answer m.generation) = { s with executions, results } ∧
        s.executions ⊆ executions ∧ m.generation ∈ executions.map Prod.fst := by
  have hposted := hs.posted m hm
  obtain ⟨r, hr, hrow⟩ := hposted.row
  have hread : m.Readable := by
    rw [Dispatch.Readable, hrow.payload]
    exact hplain.readable r (KeyedTable.find?_eq_some_iff.mp hr).1
  obtain ⟨task, text, hcarries, htext, hwork⟩ := work_eq (s := s) hposted.sent hread hstatus
  have hgrows : s.executions.map Prod.fst ⊆
      (s.executions ++ [(m.generation, task)]).map Prod.fst :=
    List.map_subset _ (List.subset_append_left _ _)
  rw [hwork]
  refine ⟨{ hs with
    executed := ?_
    executed_once := ?_
    written := ?_
    reported := ?_
    applied := fun g hg => hgrows (hs.applied hg)
    attempts := fun r hr => (hs.attempts r hr).mono (fun k => Iff.rfl) fun k => Iff.rfl },
    _, _, rfl, List.subset_append_left _ _, by simp⟩
  · intro e he
    rcases List.mem_append.mp he with he | he
    · exact hs.executed e he
    · rw [List.mem_singleton.mp he]
      exact ⟨m, hm, rfl, hcarries⟩
  · rw [List.map_append, List.map_singleton, ← List.concat_eq_append, List.nodup_concat]
    exact ⟨hnew, hs.executed_once⟩
  · intro r hr
    rcases List.mem_append.mp hr with hr | hr
    · exact hs.written r hr
    · rw [List.mem_singleton.mp hr]
      exact ⟨hstatus, text, htext, rfl⟩
  · rw [List.map_append, List.map_append, hs.reported]
    rfl

/-- **A result is applied** to the row whose attempt it is of. -/
theorem attempts_resultUpdate (h : Attempts answer s r) {event : WorkerResultEvent}
    (hstatus : (answer (r.jobId, r.retryCount)).status ∈ Worker.resultStatuses)
    (hevent : event.status = (answer (r.jobId, r.retryCount)).status)
    (hdispatches : t.dispatches = s.dispatches)
    (happlied : t.applied = s.applied ++ [(r.jobId, r.retryCount)]) (now clock : ℤ) :
    Attempts answer t ((ResultStateHandler.resultUpdate event now clock).set r) := by
  have hnow : (r.jobId, r.retryCount) ∈ t.applied := by simp [happlied]
  have hbefore : ∀ k < r.retryCount, (r.jobId, k) ∈ t.applied ∧
      endState (answer (r.jobId, k)).status = none := by
    intro k hk
    rw [happlied]
    exact (h.failed k hk).imp_left (List.mem_append_left _)
  have hahead : ∀ k, (r.jobId, k) ∈ generations t.dispatches → k ≤ r.retryCount :=
    hdispatches ▸ h.none_ahead
  -- a state that the result ends the job in, whatever else it changes in the row
  have hend : ∀ {r' : JobRow} {x : JobState}, r'.jobId = r.jobId → r'.retryCount = r.retryCount →
      r'.maxRetries = r.maxRetries → r'.state = x.value →
      (x = .succeeded ∨ x = .failed ∨ x = .deadLettered) →
      (endState (answer (r.jobId, r.retryCount)).status = some x ∨
        endState (answer (r.jobId, r.retryCount)).status = none ∧
          ¬ r.retryCount < r.maxRetries ∧ x = .deadLettered) → Attempts answer t r' := by
    intro r' x hid hcount hmax hstate hx hlast
    have hverdict := verdictOf_eq h.within (fun k hk => (h.failed k hk).2) hlast
    refine ⟨.ended hstate hx ?_ ?_, ?_, ?_, ?_⟩
    · rw [hid, hcount]
      exact hnow
    · rw [verdictOf, hid, hmax, hcount]
      exact hverdict
    · rw [hcount, hmax]
      exact h.within
    · rw [hid, hcount]
      exact hbefore
    · rw [hid, hcount]
      exact hahead
  unfold ResultStateHandler.resultUpdate
  split
  case isTrue hretryable =>
    have hnone : endState (answer (r.jobId, r.retryCount)).status = none := by
      rw [← hevent, hretryable]
      decide
    by_cases hbudget : r.retryCount < r.maxRetries
    · refine ⟨.waiting ?_ ?_ ?_, ?_, ?_, ?_⟩
      all_goals simp only [setRetryPolicy, if_pos hbudget]
      · rfl
      · intro hsent
        exact absurd (hahead _ hsent) (by omega)
      · omega
      · intro k hk
        rcases Nat.lt_succ_iff_lt_or_eq.mp hk with hk | rfl
        · exact hbefore k hk
        · exact ⟨hnow, hnone⟩
      · intro k hk
        exact Nat.le_succ_of_le (hahead k hk)
    · refine hend (x := .deadLettered) rfl ?_ rfl ?_ (by simp) (Or.inr ⟨hnone, hbudget, rfl⟩)
      all_goals simp only [setRetryPolicy, if_neg hbudget]
  case isFalse hretryable =>
    split
    case isTrue hsucceeded =>
      refine hend (x := .succeeded) rfl rfl rfl rfl (by simp) (Or.inl ?_)
      rw [← hevent, hsucceeded]
      decide
    case isFalse hsucceeded =>
      refine hend (x := .failed) rfl rfl rfl rfl (by simp) (Or.inl ?_)
      rw [← hevent] at hstatus ⊢
      have hfailed : event.status = Worker.executionTerminalFailure := by
        simpa [Worker.resultStatuses, Worker.executionSucceeded,
          Worker.executionRetryableFailure, hretryable, hsucceeded] using hstatus
      rw [hfailed]
      decide

/-- **A result delivery** to a process of its own applies the result. -/
theorem result_eq (repr : Json → String) {m : Result} (hwritten : Written answer m)
    (hid : strip m.generation.1 ≠ "") (hrow : ∃ r, s.system.jobs.find? m.generation.1 = some r)
    (now clock : ℤ) :
    ∃ (event : ValidResult) (keys : List String), event.1.jobId = m.generation.1 ∧
      event.1.status = (answer m.generation).status ∧
      State.deliverResult repr { s with resultKeys := [] } m now clock =
        { s with
          system := { s.system with
            jobs := (ResultStateHandler.handle s.system.jobs now clock event.1).1 }
          resultKeys := keys
          applied := s.applied ++ [m.generation] } := by
  obtain ⟨hstatus, text, htext, hvalue⟩ := hwritten
  have hkey : resultKeyOf m.generation = .ok _ := attemptKey_of_not_blank "worker-result" hid 0
  obtain ⟨event, heventid, heventstatus, hdeliver⟩ := deliverResult_written
    (s := { s with resultKeys := [] }) repr hstatus htext hvalue hid hrow hkey List.not_mem_nil
    now clock
  exact ⟨event, _, heventid, heventstatus, hdeliver⟩

/-- What has been executed and not applied is the attempt that its row waits for. -/
theorem Cycle.row_of_open (hs : Cycle answer s) {g : Generation}
    (hg : g ∈ s.executions.map Prod.fst) (hopen : g ∉ s.applied) (hr : r ∈ s.system.jobs.rows)
    (hid : r.jobId = g.1) : g = (r.jobId, r.retryCount) ∧ r.state = JobState.dispatched.value := by
  have hold := hs.attempts r hr
  have hsent : (r.jobId, g.2) ∈ generations s.dispatches := by
    rw [hid]
    exact hs.sent_of_executed hg
  have hcount : g.2 = r.retryCount := by
    refine le_antisymm (hold.none_ahead _ hsent) (not_lt.mp fun hlt => ?_)
    have happlied := (hold.failed _ hlt).1
    rw [hid] at happlied
    exact hopen happlied
  have hpair : g = (r.jobId, r.retryCount) := Prod.ext hid.symm hcount
  rw [hcount] at hsent
  rw [hpair] at hopen
  refine ⟨hpair, ?_⟩
  cases hold.standing with
  | queued _ hnew => exact absurd hsent hnew
  | dispatched hstate => exact hstate
  | waiting _ _ hnew => exact absurd hsent hnew
  | ended _ _ happlied => exact absurd happlied hopen

theorem Cycle.result (hs : Cycle answer s) {m : Result} (hm : m ∈ s.results)
    (hopen : m.generation ∉ s.applied) (now clock : ℤ) :
    Cycle answer (State.deliverResult repr { s with resultKeys := [] } m now clock) := by
  have hexecuted : m.generation ∈ s.executions.map Prod.fst := by
    rw [← hs.reported]
    exact List.mem_map_of_mem hm
  obtain ⟨hid, hrow⟩ := hs.row_of_sent (hs.sent_of_executed hexecuted)
  have hwritten := hs.written m hm
  obtain ⟨event, keys, heventid, heventstatus, hdeliver⟩ :=
    result_eq repr hwritten hid hrow now clock
  have hstep : s.system.step (.result event now clock) = some { s.system with
      jobs := (ResultStateHandler.handle s.system.jobs now clock event.1).1 } := rfl
  rw [hdeliver]
  refine { hs with
    table := hs.table.step hstep
    untouched := untouched_of_step hstep (fun q jobId h => by cases h) hs.untouched
    posted := fun m hm => (hs.posted m hm).step hstep
    applied := ?_
    applied_once := ?_
    attempts := ?_ }
  · intro g hg
    rcases List.mem_append.mp hg with hg | hg
    · exact hs.applied hg
    · rwa [List.mem_singleton.mp hg]
  · rw [← List.concat_eq_append, List.nodup_concat]
    exact ⟨hopen, hs.applied_once⟩
  · intro r' hr'
    have hfind := KeyedTable.find?_of_mem hr'
    change (ResultStateHandler.handle s.system.jobs now clock event.1).1.find? r'.jobId =
      some r' at hfind
    rw [ResultStateHandler.find?_handle _ _ _ event.2] at hfind
    split at hfind
    · rename_i hjob
      obtain ⟨r, hr, rfl⟩ := Option.map_eq_some_iff.mp hfind
      obtain ⟨hmem, hrid⟩ := KeyedTable.find?_eq_some_iff.mp hr
      obtain ⟨hpair, -⟩ := hs.row_of_open hexecuted hopen hmem
        (hrid.trans (hjob.trans heventid))
      have hstatus := hwritten.status
      rw [hpair] at hstatus heventstatus
      refine attempts_resultUpdate (hs.attempts r hmem) hstatus heventstatus ?_ ?_ now clock
      · rfl
      · exact congrArg (s.applied ++ [·]) hpair
    · rename_i hjob
      refine (hs.attempts r' (KeyedTable.find?_eq_some_iff.mp hfind).1).mono (fun k => Iff.rfl) ?_
      intro k
      rw [List.mem_append, List.mem_singleton, or_iff_left]
      -- the result is of another job
      exact fun hg => hjob ((congrArg Prod.fst hg).trans heventid.symm)

theorem step_deliverDispatch_iff {i : ℕ} {outcome : ExecutionResult} :
    step repr s (.deliverDispatch i outcome) = some t ↔
      outcome.status ∈ Worker.resultStatuses ∧
        ∃ m, s.dispatches[i]? = some m ∧ work s m outcome = t := by
  rw [step]
  split
  · simp [*]
  · simp [*]

/-- **One step** of a run that nobody disturbs. -/
theorem Cycle.step (hs : Cycle answer s) {a : Action} (ha : Orderly answer s a)
    (hstep : step repr s a = some t) : Cycle answer t := by
  obtain ⟨hplain, hundisturbed⟩ := ha
  cases a with
  | tick runner E now =>
      have htick : State.step repr { s with dispatchKeys := [] } (.tick runner E now) = some t :=
        hstep
      obtain ⟨httl, rfl⟩ := step_tick_iff.mp htick
      exact hs.tick hplain httl E now
  | deliverDispatch i outcome =>
      obtain ⟨hstatus, m, hm, rfl⟩ := step_deliverDispatch_iff.mp hstep
      obtain ⟨rfl, hnew⟩ := hundisturbed m hm
      exact (hs.work hplain (List.mem_of_getElem? hm) hstatus hnew).1
  | deliverResult i now clock =>
      obtain ⟨m, hm, rfl⟩ := Option.map_eq_some_iff.mp hstep
      exact hs.result (List.mem_of_getElem? hm) (hundisturbed m hm) now clock
  | request q => exact hs.onTable hundisturbed hstep
  | write i now => exact hs.onTable hundisturbed hstep
  | scan E stamp now limit => exact hs.onTable hundisturbed hstep
  | requeueDeadLettered jobId now => exact absurd hundisturbed id

/-- A row that is not under way has ended. -/
theorem Cycle.ended (hs : Cycle answer s) (hr : r ∈ s.system.jobs.rows) (hend : ¬ UnderWay r) :
    Ended answer s r := by
  have hold := hs.attempts r hr
  cases hold.standing with
  | queued hstate => exact absurd (Or.inl hstate) hend
  | dispatched hstate => exact absurd (Or.inr (Or.inl hstate)) hend
  | waiting hstate => exact absurd (Or.inr (Or.inr hstate)) hend
  | ended hstate hx happlied hverdict =>
      refine ⟨?_, ?_, fun k => ⟨fun hk => hold.none_ahead k (hs.sent_of_executed hk), fun hk => ?_⟩⟩
      · rw [hverdict]
        exact hstate
      · rw [hverdict]
      · rcases Nat.lt_or_eq_of_le hk with hk | rfl
        · exact hs.applied (hold.failed k hk).1
        · exact hs.applied happlied

theorem Cycle.counted (hs : Cycle answer s) : Counted answer s where
  attempts := hs.attempts
  dispatched_once := hs.dispatched_once
  executed_once := hs.executed_once
  applied_once := hs.applied_once
  executed e he := by
    obtain ⟨m, hm, heq, hcarries⟩ := hs.executed e he
    obtain ⟨r, hr, hrow⟩ := (hs.posted m hm).row
    obtain ⟨hmem, hid⟩ := KeyedTable.find?_eq_some_iff.mp hr
    refine ⟨r, hmem, ?_, ?_, m, hrow, hcarries⟩
    · rw [heq, hid]
      rfl
    · rw [heq]
      exact hrow.retryCount
  ended r hr hend := hs.ended hr hend

end Steps

/-! ## Runs -/

section Runs

variable {answer : Generation → ExecutionResult} {repr : Json → String} {as : List Action}
  {s : State}

theorem cycle_of_run (h : (machine repr).run .start as = some s)
    (horderly : (machine repr).EachStep (Orderly answer) .start as) : Cycle answer s :=
  Machine.run_invariant_of_eachStep (fun _ _ _ hs ha hstep => hs.step ha hstep) horderly
    (cycle_start answer) h

/-- **Attempt after attempt** is counted in every run that nobody disturbs. -/
theorem attempts_counted (h : (machine repr).run .start as = some s)
    (horderly : (machine repr).EachStep (Orderly answer) .start as) : Counted answer s :=
  (cycle_of_run h horderly).counted

end Runs

/-! ## No dead ends -/

/-- How far a job has to go at most: four steps for each retry that is left, and the steps of
the attempt that it is in. -/
def weight (s : State) (r : JobRow) : ℕ :=
  if r.state = JobState.retryScheduled.value then 4 * (r.maxRetries - r.retryCount) + 4
  else if r.state = JobState.queued.value then 4 * (r.maxRetries - r.retryCount) + 3
  else if r.state = JobState.dispatched.value then
    4 * (r.maxRetries - r.retryCount) +
      if (r.jobId, r.retryCount) ∈ s.executions.map Prod.fst then 1 else 2
  else 0

def weightOf (s : State) (jobId : String) : ℕ :=
  ((s.system.jobs.find? jobId).map (weight s)).getD 0

/-- No job has further to go than before, and one has less. -/
structure Onward (s t : State) (jobId : String) : Prop where
  rows : ∀ k r, s.system.jobs.find? k = some r → ∃ r', t.system.jobs.find? k = some r' ∧
    r'.payload = r.payload ∧ weight t r' ≤ weight s r
  old : ∀ k, s.system.jobs.find? k = none → t.system.jobs.find? k = none
  down : weightOf t jobId < weightOf s jobId

section Progress

variable {answer : Generation → ExecutionResult} {s t : State} {r : JobRow}

theorem weight_waiting (s : State) (h : r.state = JobState.retryScheduled.value) :
    weight s r = 4 * (r.maxRetries - r.retryCount) + 4 :=
  if_pos h

theorem weight_queued (s : State) (h : r.state = JobState.queued.value) :
    weight s r = 4 * (r.maxRetries - r.retryCount) + 3 := by
  rw [weight, h, if_neg (by decide), if_pos rfl]

theorem weight_dispatched (s : State) (h : r.state = JobState.dispatched.value) :
    weight s r = 4 * (r.maxRetries - r.retryCount) +
      if (r.jobId, r.retryCount) ∈ s.executions.map Prod.fst then 1 else 2 := by
  rw [weight, h, if_neg (by decide), if_neg (by decide), if_pos rfl]

theorem weight_ended (s : State) (h : ¬ UnderWay r) : weight s r = 0 := by
  rw [UnderWay, not_or, not_or] at h
  rw [weight, if_neg h.2.2, if_neg h.1, if_neg h.2.1]

theorem weight_mono (h : s.executions ⊆ t.executions) (r : JobRow) : weight t r ≤ weight s r := by
  have hsub : (r.jobId, r.retryCount) ∈ s.executions.map Prod.fst →
      (r.jobId, r.retryCount) ∈ t.executions.map Prod.fst := fun hg => List.map_subset _ h hg
  unfold weight
  split
  · exact le_rfl
  · split
    · exact le_rfl
    · split
      · by_cases hs : (r.jobId, r.retryCount) ∈ s.executions.map Prod.fst
        · rw [if_pos hs, if_pos (hsub hs)]
        · rw [if_neg hs]
          split <;> omega
      · exact le_rfl

/-- Some rows are rewritten, and each of them has less to go. -/
theorem onward_of_rewrite {p : JobRow → Prop} [DecidablePred p] {u : JobUpdate}
    (hfind : ∀ k, t.system.jobs.find? k =
      (s.system.jobs.find? k).map fun r => if p r then u.set r else r)
    (hexecutions : s.executions ⊆ t.executions)
    (hpayload : ∀ r, (u.set r).payload = r.payload)
    (hless : ∀ r ∈ s.system.jobs.rows, p r → weight t (u.set r) < weight s r)
    (hr : r ∈ s.system.jobs.rows) (hp : p r) : Onward s t r.jobId where
  rows k r₀ hr₀ := by
    have hmem := (KeyedTable.find?_eq_some_iff.mp hr₀).1
    rw [hfind, hr₀, Option.map_some]
    refine ⟨_, rfl, ?_⟩
    split
    · exact ⟨hpayload r₀, (hless r₀ hmem ‹_›).le⟩
    · exact ⟨rfl, weight_mono hexecutions r₀⟩
  old k hk := by rw [hfind, hk, Option.map_none]
  down := by
    rw [weightOf, weightOf, hfind, KeyedTable.find?_of_mem hr]
    simp only [Option.map_some, Option.getD_some, if_pos hp]
    exact hless r hr hp

/-- A tick with room for all. -/
theorem Cycle.onward_queued (repr : Json → String) (hs : Cycle answer s)
    (hplain : Plain s.system.jobs) (hr : r ∈ s.system.jobs.rows)
    (hstate : r.state = JobState.queued.value) :
    ∃ a t, Undisturbed answer s a ∧ (machine repr).step s a = some t ∧ Onward s t r.jobId := by
  have hpos : (0 : ℤ) < s.system.jobs.rows.length :=
    Int.natCast_pos.mpr (List.length_pos_of_mem hr)
  let runner : SchedulerTickRunner :=
    { maxJobsPerTick := s.system.jobs.rows.length, maxJobs_pos := hpos }
  have httl : 0 < runner.dispatchDedupeTtlSeconds := by
    show 0 < defaultDispatchDedupeTtlSeconds
    decide
  obtain ⟨system, keys, -, hfind, htick⟩ := tick_eq hplain httl .quiet 0
  have hstep : State.step repr { s with dispatchKeys := [] } (.tick runner .quiet 0) = some
      (State.tick { s with dispatchKeys := [] } runner .quiet 0) := step_tick_iff.mpr ⟨httl, rfl⟩
  refine ⟨.tick runner .quiet 0, _, trivial, hstep, ?_⟩
  rw [htick]
  refine onward_of_rewrite hfind (List.Subset.refl _) (fun r => rfl) ?_ hr ?_
  · intro r₀ hr₀ hclaimed
    obtain ⟨job, hjob, hjobid⟩ := List.mem_map.mp hclaimed
    obtain ⟨r₁, hr₁, hqueued, hid₁, -⟩ := hs.of_claimed hjob
    obtain rfl : r₁ = r₀ := s.system.jobs.eq_of_key_eq hr₁ hr₀ (hid₁.symm.trans hjobid)
    rw [weight_queued s hqueued, weight_dispatched _ rfl]
    show 4 * (r₁.maxRetries - r₁.retryCount) + _ < _
    split <;> omega
  · have hselected : r ∈ rowsOf s runner .quiet := by
      refine claimOrder.mem_selectTop_of_length_le ?_ (List.mem_filter.mpr ⟨hr, ?_⟩)
      · exact (List.length_filter_le _ _).trans_eq (Int.toNat_natCast _).symm
      · simp [hstate, Executor.quiet]
    have hjob := (@Dispatching.mem_claimedJobs_iff runner .quiet 0 _ _).mpr ⟨r, hselected, rfl⟩
    exact List.mem_map.mpr ⟨_, hjob, rfl⟩

/-- A scan that comes late enough. -/
theorem Cycle.onward_waiting (repr : Json → String) (hr : r ∈ s.system.jobs.rows)
    (hstate : r.state = JobState.retryScheduled.value) (hdue : r.retryAfter.isSome) :
    ∃ a t, Undisturbed answer s a ∧ (machine repr).step s a = some t ∧ Onward s t r.jobId := by
  obtain ⟨τ, hτ⟩ := Option.isSome_iff_exists.mp hdue
  have hpos : (0 : ℤ) < s.system.jobs.rows.length :=
    Int.natCast_pos.mpr (List.length_pos_of_mem hr)
  obtain ⟨T', ids, hscan⟩ : ∃ T' ids, JobRepository.requeueDueRetries s.system.jobs .quiet 0 τ
      s.system.jobs.rows.length = .ok (T', ids) := by
    rw [JobRepository.requeueDueRetries, if_neg (not_le.mpr hpos)]
    exact ⟨_, _, rfl⟩
  obtain ⟨-, hfind⟩ := JobRepository.requeueDueRetries_eq_ok hscan
  have hstep : Scripts.step repr s (.scan .quiet 0 τ s.system.jobs.rows.length) =
      some { s with system := { s.system with jobs := T' } } := by
    have htable : Scripts.step repr s (.scan .quiet 0 τ s.system.jobs.rows.length) =
        (s.system.step (.scan .quiet 0 τ s.system.jobs.rows.length)).map
          fun system => { s with system } := rfl
    rw [htable]
    simp only [System.step, System.tableOf, hscan, Option.map_some]
  refine ⟨.scan .quiet 0 τ s.system.jobs.rows.length, _, trivial, hstep, ?_⟩
  refine onward_of_rewrite hfind (List.Subset.refl _) (fun r => rfl) ?_ hr ?_
  · intro r₀ hr₀ hselected
    obtain ⟨r₁, hr₁, hid⟩ := List.mem_map.mp hselected
    obtain ⟨hmem, hdue', -⟩ := JobRepository.mem_dueRows hr₁
    obtain rfl : r₁ = r₀ := s.system.jobs.eq_of_key_eq hmem hr₀ hid
    rw [weight_waiting s (JobRepository.isDue_iff.mp hdue').1, weight_queued _ rfl]
    show 4 * (r₁.maxRetries - r₁.retryCount) + 3 < _
    omega
  · refine List.mem_map.mpr ⟨r, ?_, rfl⟩
    refine dueOrder.mem_selectTop_of_length_le ?_ (List.mem_filter.mpr ⟨hr, ?_⟩)
    · exact (List.length_filter_le _ _).trans_eq (Int.toNat_natCast _).symm
    · have hdue' := JobRepository.isDue_iff.mpr ⟨hstate, τ, hτ, le_rfl⟩
      simp [hdue', Executor.quiet]

/-- What a result leaves of the way. -/
theorem weight_resultUpdate (t : State) (event : WorkerResultEvent) (now clock : ℤ) (r : JobRow) :
    weight t ((ResultStateHandler.resultUpdate event now clock).set r) ≤
      4 * (r.maxRetries - r.retryCount) := by
  have hzero : ∀ (r' : JobRow) (x : JobState), r'.state = x.value →
      (x = .succeeded ∨ x = .failed ∨ x = .deadLettered) →
      weight t r' ≤ 4 * (r.maxRetries - r.retryCount) := by
    intro r' x hstate hx
    rw [weight_ended t]
    · exact Nat.zero_le _
    · rw [UnderWay, hstate]
      rcases hx with rfl | rfl | rfl <;> decide
  unfold ResultStateHandler.resultUpdate
  split
  · by_cases hbudget : r.retryCount < r.maxRetries
    · rw [weight_waiting]
      · simp only [setRetryPolicy, if_pos hbudget]
        omega
      · simp only [setRetryPolicy, if_pos hbudget]
    · refine hzero _ .deadLettered ?_ (by simp)
      simp only [setRetryPolicy, if_neg hbudget]
  · split
    · exact hzero _ .succeeded rfl (by simp)
    · exact hzero _ .failed rfl (by simp)

/-- The delivery of its message, or of its result. -/
theorem Cycle.onward_dispatched (repr : Json → String) (hs : Cycle answer s)
    (hplain : Plain s.system.jobs) (hanswer : ∀ g, (answer g).status ∈ Worker.resultStatuses)
    (hr : r ∈ s.system.jobs.rows) (hstate : r.state = JobState.dispatched.value)
    (hsent : (r.jobId, r.retryCount) ∈ generations s.dispatches)
    (hopen : (r.jobId, r.retryCount) ∉ s.applied) :
    ∃ a t, Undisturbed answer s a ∧ (machine repr).step s a = some t ∧ Onward s t r.jobId := by
  by_cases hexecuted : (r.jobId, r.retryCount) ∈ s.executions.map Prod.fst
  case neg =>
    obtain ⟨m, hm, hgeneration⟩ := List.mem_map.mp hsent
    obtain ⟨i, hi⟩ := List.mem_iff_getElem?.mp hm
    have hnew : m.generation ∉ s.executions.map Prod.fst := hgeneration ▸ hexecuted
    obtain ⟨-, executions, results, hwork, hgrown, hmem⟩ :=
      hs.work hplain hm (hanswer m.generation) hnew
    have hstep : Scripts.step repr s (.deliverDispatch i (answer m.generation)) =
        some (Scripts.work s m (answer m.generation)) :=
      step_deliverDispatch_iff.mpr ⟨hanswer _, m, hi, rfl⟩
    refine ⟨.deliverDispatch i (answer m.generation), _, ?_, hstep, ?_⟩
    · intro m' hm'
      obtain rfl := Option.some.inj (hi.symm.trans hm')
      exact ⟨rfl, hnew⟩
    · rw [hwork]
      refine ⟨fun k r₀ hr₀ => ⟨r₀, hr₀, rfl, weight_mono hgrown r₀⟩, fun k hk => hk, ?_⟩
      rw [weightOf, weightOf]
      show ((s.system.jobs.find? r.jobId).map _).getD 0 < _
      rw [KeyedTable.find?_of_mem hr, Option.map_some, Option.map_some, Option.getD_some,
        Option.getD_some, weight_dispatched s hstate, weight_dispatched _ hstate, if_neg hexecuted,
        if_pos (hgeneration ▸ hmem)]
      omega
  case pos =>
    have hreported := hexecuted
    rw [← hs.reported] at hreported
    obtain ⟨m, hm, hgeneration⟩ := List.mem_map.mp hreported
    obtain ⟨j, hj⟩ := List.mem_iff_getElem?.mp hm
    have hid : strip m.generation.1 ≠ "" := by
      rw [hgeneration]
      exact hplain.clean.1 r hr
    have hrow : ∃ r', s.system.jobs.find? m.generation.1 = some r' := by
      rw [hgeneration]
      exact ⟨r, KeyedTable.find?_of_mem hr⟩
    obtain ⟨event, keys, heventid, -, hdeliver⟩ := result_eq repr (hs.written m hm) hid hrow 0 0
    have hstep : (machine repr).step s (.deliverResult j 0 0) =
        some (State.deliverResult repr { s with resultKeys := [] } m 0 0) := by
      show (s.results[j]?).map _ = _
      rw [hj, Option.map_some]
    refine ⟨.deliverResult j 0 0, _, ?_, hstep, ?_⟩
    · intro m' hm'
      obtain rfl := Option.some.inj (hj.symm.trans hm')
      rwa [hgeneration]
    · rw [hdeliver]
      have hjob : r.jobId = event.1.jobId := by
        rw [heventid, hgeneration]
      refine onward_of_rewrite (p := fun r => r.jobId = event.1.jobId)
        (u := ResultStateHandler.resultUpdate event.1 0 0) ?_ (List.Subset.refl _) ?_ ?_ hr hjob
      · intro k
        show (ResultStateHandler.handle s.system.jobs 0 0 event.1).1.find? k = _
        rw [ResultStateHandler.find?_handle _ _ _ event.2]
        cases hfind : s.system.jobs.find? k with
        | none => simp
        | some r₀ =>
            obtain ⟨-, rfl⟩ := KeyedTable.find?_eq_some_iff.mp hfind
            rw [Option.map_some, Option.map_some]
            split <;> rfl
      · exact fun r₀ => (kept_resultUpdate event.1 0 0 r₀).payload
      · intro r₀ hr₀ hid₀
        obtain rfl : r₀ = r := s.system.jobs.eq_of_key_eq hr₀ hr (hid₀.trans hjob.symm)
        rw [weight_dispatched s hstate, if_pos hexecuted]
        exact Nat.lt_succ_of_le (weight_resultUpdate _ event.1 0 0 r₀)

/-- **No job is stuck**: some step brings it on its way. -/
theorem Cycle.onward (repr : Json → String) (hs : Cycle answer s) (hplain : Plain s.system.jobs)
    (hanswer : ∀ g, (answer g).status ∈ Worker.resultStatuses) (hr : r ∈ s.system.jobs.rows)
    (hunderWay : UnderWay r) :
    ∃ a t, Undisturbed answer s a ∧ (machine repr).step s a = some t ∧ Onward s t r.jobId := by
  cases (hs.attempts r hr).standing with
  | queued hstate => exact hs.onward_queued repr hplain hr hstate
  | dispatched hstate hsent hopen =>
      exact hs.onward_dispatched repr hplain hanswer hr hstate hsent hopen
  | waiting hstate hdue => exact Cycle.onward_waiting repr hr hstate hdue
  | ended hstate hx =>
      rw [UnderWay, hstate] at hunderWay
      rcases hx with rfl | rfl | rfl <;> exact absurd hunderWay (by decide)

/-- Between `s₀` and the end of its jobs. -/
structure Toward (answer : Generation → ExecutionResult) (s₀ s : State) : Prop where
  cycle : Cycle answer s
  plain : Plain s.system.jobs
  same : ∀ k, (s.system.jobs.find? k).isSome = (s₀.system.jobs.find? k).isSome

theorem Toward.next {repr : Json → String} {s₀ : State} {a : Action} {jobId : String}
    (hs : Toward answer s₀ s) (ha : Undisturbed answer s a)
    (hstep : (machine repr).step s a = some t) (honward : Onward s t jobId) :
    Toward answer s₀ t where
  cycle := hs.cycle.step ⟨hs.plain, ha⟩ hstep
  plain := by
    refine hs.plain.of_rows fun r' hr' => ?_
    have hrow := KeyedTable.find?_of_mem hr'
    cases hfind : s.system.jobs.find? r'.jobId with
    | none =>
        rw [honward.old _ hfind] at hrow
        cases hrow
    | some r =>
        obtain ⟨hmem, hid⟩ := KeyedTable.find?_eq_some_iff.mp hfind
        obtain ⟨r₁, hr₁, hpayload, -⟩ := honward.rows _ r hfind
        rw [hrow] at hr₁
        obtain rfl := Option.some.inj hr₁
        exact ⟨r, hmem, hid, hpayload.symm⟩
  same k := by
    rw [← hs.same k]
    cases hfind : s.system.jobs.find? k with
    | none => rw [honward.old k hfind]
    | some r =>
        obtain ⟨r', hr', -⟩ := honward.rows k r hfind
        rw [hr']
        rfl

/-- All the way that is left. -/
def remaining (s₀ s : State) : ℕ :=
  (s₀.system.jobs.rows.map fun r => weightOf s r.jobId).sum

theorem remaining_lt {s₀ : State} (hs : Toward answer s₀ s) (hr : r ∈ s.system.jobs.rows)
    (honward : Onward s t r.jobId) : remaining s₀ t < remaining s₀ s := by
  apply List.sum_lt_sum
  · intro r₀ _
    rw [weightOf, weightOf]
    cases hfind : s.system.jobs.find? r₀.jobId with
    | none => rw [honward.old _ hfind]; exact le_rfl
    | some r₁ =>
        obtain ⟨r', hr', -, hle⟩ := honward.rows _ r₁ hfind
        rw [hr']
        exact hle
  · have hsome : (s₀.system.jobs.find? r.jobId).isSome := by
      rw [← hs.same, KeyedTable.find?_of_mem hr]
      rfl
    obtain ⟨r₀, hr₀⟩ := Option.isSome_iff_exists.mp hsome
    obtain ⟨hmem, hid⟩ := KeyedTable.find?_eq_some_iff.mp hr₀
    exact ⟨r₀, hmem, by rw [hid]; exact honward.down⟩

/-- **No dead ends**: the run can be continued, as it began, until every job has its verdict. -/
theorem attempts_end {repr : Json → String} {as : List Action}
    (h : (machine repr).run .start as = some s)
    (horderly : (machine repr).EachStep (Orderly answer) .start as) (hplain : Plain s.system.jobs)
    (hanswer : ∀ g, (answer g).status ∈ Worker.resultStatuses) :
    ∃ bs t, (machine repr).EachStep (Orderly answer) s bs ∧ (machine repr).run s bs = some t ∧
      (∀ k, (t.system.jobs.find? k).isSome = (s.system.jobs.find? k).isSome) ∧
      ∀ r ∈ t.system.jobs.rows, Ended answer t r := by
  have hstart : Toward answer s s := ⟨cycle_of_run h horderly, hplain, fun _ => rfl⟩
  have hnext : ∀ u, Toward answer s u → ¬ (∀ r ∈ u.system.jobs.rows, ¬ UnderWay r) →
      ∃ a v, Orderly answer u a ∧ (machine repr).step u a = some v ∧ Toward answer s v ∧
        remaining s v < remaining s u := by
    intro u hu hgoal
    obtain ⟨r, hr⟩ := not_forall.mp hgoal
    obtain ⟨hmem, hunderWay⟩ := Classical.not_imp.mp hr
    obtain ⟨a, v, ha, hstep, honward⟩ :=
      hu.cycle.onward repr hu.plain hanswer hmem (not_not.mp hunderWay)
    exact ⟨a, v, ⟨hu.plain, ha⟩, hstep, hu.next ha hstep honward, remaining_lt hu hmem honward⟩
  obtain ⟨bs, t, hbs, hrun, ht, hend⟩ := Machine.exists_run (remaining s) hnext hstart
  exact ⟨bs, t, hbs, hrun, ht.same, fun r hr => ht.cycle.ended hr (hend r hr)⟩

end Progress

/-! ## A job that fails once -/

namespace OneJob

/-- The first attempt fails, and the second succeeds. -/
def failsOnce : Generation → ExecutionResult
  | (_, 0) => Pipeline.OneJob.retryable
  | _ => success

def retried : List Action :=
  Pipeline.OneJob.redispatched ++ [.deliverDispatch 1 success, .deliverResult 1 120 120]

theorem run_observed {β : Type} [DecidableEq β] (as : List Action) (f : State → β) (v : β)
    (h : ((machine fun _ => "").checkedRun (Orderly failsOnce) .start as).any (fun s =>
      decide (Plain s.system.jobs) && decide (f s = v)) = true) :
    ∃ s, (machine fun _ => "").run .start as = some s ∧
      (machine fun _ => "").EachStep (Orderly failsOnce) .start as ∧ Plain s.system.jobs ∧
      f s = v := by
  obtain ⟨s, hs, h⟩ := (Option.any_eq_true _ _).mp h
  obtain ⟨hplain, hv⟩ := Bool.and_eq_true_iff.mp h
  obtain ⟨hrun, horderly⟩ := Machine.run_of_checkedRun hs
  exact ⟨s, hrun, horderly, of_decide_eq_true hplain, of_decide_eq_true hv⟩

end OneJob

theorem attempts_counted_retried :
    ∃ s, (machine fun _ => "").run .start OneJob.retried = some s ∧
      s.executions.map Prod.fst = [("job", 0), ("job", 1)] ∧ Counted OneJob.failsOnce s := by
  obtain ⟨s, hs, horderly, -, hv⟩ := OneJob.run_observed OneJob.retried
    (fun s => s.executions.map Prod.fst) [("job", 0), ("job", 1)] (by decide +kernel)
  exact ⟨s, hs, hv, attempts_counted hs horderly⟩

theorem attempts_end_enqueued :
    ∃ s bs t, (machine fun _ => "").run .start Pipeline.OneJob.enqueued = some s ∧
      (machine fun _ => "").run s bs = some t ∧ s.system.jobs.rows.length = 1 ∧
      ∀ r ∈ t.system.jobs.rows, Ended OneJob.failsOnce t r := by
  obtain ⟨s, hs, horderly, hplain, hv⟩ := OneJob.run_observed Pipeline.OneJob.enqueued
    (fun s => s.system.jobs.rows.length) 1 (by decide +kernel)
  have hanswer : ∀ g, (OneJob.failsOnce g).status ∈ Worker.resultStatuses := by
    rintro ⟨jobId, _ | k⟩
    · show Pipeline.OneJob.retryable.status ∈ Worker.resultStatuses
      decide
    · show success.status ∈ Worker.resultStatuses
      decide
  obtain ⟨bs, t, -, ht, -, hended⟩ := attempts_end hs horderly hplain hanswer
  exact ⟨s, bs, t, hs, ht, hv, hended⟩

end KernelQ.Pipeline.Scripts
