import KernelQ.ControlPlane.OrderedScans
import KernelQ.Pipeline.SecondAttempts

/-!
# First attempts

Where nobody moves a job by hand and nothing is tried again, the pipeline serves the jobs of a
plain table. A row and the messages of its job always tell of one stage (`Stage`): it waits, it
is on its way, or it has ended as its one execution has. No stage swallows what it is handed, so
once there is nothing left to hand on every job has ended (`first_attempts`); and a state is
never a dead end: one tick, and one delivery of each message, end them all
(`first_attempts_end`).
-/

namespace KernelQ.Pipeline

open KernelQ.Foundation KernelQ.ControlPlane
open Worker (ExecutionResult newWorkerResultEvent workerIdentity)

/-- The ids are clean, and the worker can read the payloads. -/
structure Plain (T : Jobs) : Prop where
  clean : Dispatching.CleanIds T
  readable : ∀ r ∈ T.rows, ∀ member ∈ r.payload.fields, (entryOf member).isSome

instance (T : Jobs) : Decidable (Plain T) :=
  decidable_of_iff (Dispatching.CleanIds T ∧
    ∀ r ∈ T.rows, ∀ member ∈ r.payload.fields, (entryOf member).isSome)
    ⟨fun h => ⟨h.1, h.2⟩, fun h => ⟨h.clean, h.readable⟩⟩

/-- Clients only enqueue, and nothing is queued again. -/
def Action.first : Action → Bool
  | request (.transition _ _) => false
  | scan _ _ _ _ => false
  | requeueDeadLettered _ _ => false
  | _ => true

/-- What a result makes of a row that has not been tried before. -/
structure EndedAs (outcome : ExecutionResult) (r : JobRow) : Prop where
  succeeded : outcome.status = Worker.executionSucceeded →
    r.state = JobState.succeeded.value ∧ r.retryCount = 0
  failed : outcome.status = Worker.executionTerminalFailure →
    r.state = JobState.failed.value ∧ r.retryCount = 0
  retried : outcome.status = Worker.executionRetryableFailure →
    r.state = (if 0 < r.maxRetries then JobState.retryScheduled else .deadLettered).value ∧
      r.retryCount = if 0 < r.maxRetries then 1 else 0

/-- The job has been executed with this outcome, and the result has been applied to the row. -/
structure EndedBy (s : State) (r : JobRow) (m : Result) (outcome : ExecutionResult) : Prop where
  result : m ∈ s.results
  generation : m.generation = (r.jobId, 0)
  applied : m.generation ∈ s.applied
  status : outcome.status ∈ Worker.resultStatuses
  written : ∃ text, (newWorkerResultEvent r.jobId outcome workerIdentity).toJSON = .ok text ∧
    m.message.value = text.toUTF8
  ended : EndedAs outcome r

/-- Where a job is: what its row says, and what its messages say. -/
inductive Stage (s : State) (r : JobRow) : Prop
  | queued (hstate : r.state = JobState.queued.value) (hcount : r.retryCount = 0)
      (hnew : (r.jobId, 0) ∉ generations s.dispatches)
  | dispatched (hstate : r.state = JobState.dispatched.value) (hcount : r.retryCount = 0)
      (hsent : (r.jobId, 0) ∈ generations s.dispatches) (hopen : (r.jobId, 0) ∉ s.applied)
  | ended {m : Result} {outcome : ExecutionResult} (h : EndedBy s r m outcome)

/-- Everything has been handed on. -/
structure Quiet (s : State) : Prop where
  queued : ∀ r ∈ s.system.jobs.rows, r.state ≠ JobState.queued.value
  dispatches : ∀ m ∈ s.dispatches, m.generation ∈ s.executions.map Prod.fst
  results : ∀ m ∈ s.results, m.generation ∈ s.applied

/-- **The first attempts** of the jobs of a plain table. -/
structure FirstAttempts (repr : Json → String) (s : State) : Prop where
  stage : ∀ r ∈ s.system.jobs.rows, Stage s r
  dispatched_once : (generations s.dispatches).Nodup
  executed_once : (s.executions.map Prod.fst).Nodup
  applied_once : s.applied.Nodup
  /-- What a step is handed it hands on, whatever step comes next. -/
  handed_on : ∀ a, Faithful repr s a
  ended : Quiet s → ∀ r ∈ s.system.jobs.rows, ∃ m outcome, EndedBy s r m outcome

/-! ## Rows -/

/-- A table with no other ids and payloads is plain as well. -/
theorem Plain.of_rows {T T' : Jobs} (h : Plain T)
    (hrows : ∀ r' ∈ T'.rows, ∃ r ∈ T.rows, r.jobId = r'.jobId ∧ r.payload = r'.payload) :
    Plain T' := by
  refine ⟨⟨?_, ?_⟩, ?_⟩
  · intro r' hr'
    obtain ⟨r, hr, hid, -⟩ := hrows r' hr'
    rw [← hid]
    exact h.clean.1 r hr
  · intro r₁' hr₁' r₂' hr₂'
    obtain ⟨r₁, hr₁, hid₁, -⟩ := hrows r₁' hr₁'
    obtain ⟨r₂, hr₂, hid₂, -⟩ := hrows r₂' hr₂'
    rw [← hid₁, ← hid₂]
    exact h.clean.2 r₁ hr₁ r₂ hr₂
  · intro r' hr'
    obtain ⟨r, hr, -, hpayload⟩ := hrows r' hr'
    rw [← hpayload]
    exact h.readable r hr

section Rows

variable {s t : State} {r : JobRow} {outcome : ExecutionResult} {m : Result}

theorem status_cases (hstatus : outcome.status ∈ Worker.resultStatuses) :
    outcome.status = Worker.executionSucceeded ∨
      outcome.status = Worker.executionRetryableFailure ∨
      outcome.status = Worker.executionTerminalFailure := by
  simpa [Worker.resultStatuses] using hstatus

/-- A row that has ended is neither waiting nor on its way. -/
theorem EndedAs.state_ne (h : EndedAs outcome r)
    (hstatus : outcome.status ∈ Worker.resultStatuses) :
    r.state ≠ JobState.queued.value ∧ r.state ≠ JobState.dispatched.value := by
  rcases status_cases hstatus with hs | hs | hs
  · rw [(h.succeeded hs).1]
    decide
  · rw [(h.retried hs).1]
    split <;> decide
  · rw [(h.failed hs).1]
    decide

theorem EndedBy.state_ne (h : EndedBy s r m outcome) :
    r.state ≠ JobState.queued.value ∧ r.state ≠ JobState.dispatched.value :=
  h.ended.state_ne h.status

/-- **A result is applied** to a row that has not been tried. -/
theorem endedAs_resultUpdate {event : WorkerResultEvent} (hstatus : event.status = outcome.status)
    (hcount : r.retryCount = 0) (now clock : ℤ) :
    EndedAs outcome ((ResultStateHandler.resultUpdate event now clock).set r) := by
  constructor
  · intro hs
    have hsucceeded : event.status = "succeeded" := hstatus.trans hs
    have hne : event.status ≠ "retryable_failure" := by
      rw [hsucceeded]
      decide
    rw [ResultStateHandler.resultUpdate, if_neg hne, if_pos hsucceeded]
    exact ⟨rfl, hcount⟩
  · intro hs
    have hfailed : event.status = "terminal_failure" := hstatus.trans hs
    have hne : event.status ≠ "retryable_failure" ∧ event.status ≠ "succeeded" := by
      rw [hfailed]
      decide
    rw [ResultStateHandler.resultUpdate, if_neg hne.1, if_neg hne.2]
    exact ⟨rfl, hcount⟩
  · intro hs
    have hretryable : event.status = "retryable_failure" := hstatus.trans hs
    rw [ResultStateHandler.resultUpdate, if_pos hretryable]
    simp only [setRetryPolicy, hcount]
    by_cases hbudget : 0 < r.maxRetries <;> simp [hbudget]

/-- Neither its row nor its messages have changed. -/
theorem Stage.mono (h : Stage s r) (hdispatches : t.dispatches = s.dispatches)
    (happlied : t.applied = s.applied) (hresults : s.results ⊆ t.results) : Stage t r := by
  cases h with
  | queued hstate hcount hnew => exact .queued hstate hcount (hdispatches ▸ hnew)
  | dispatched hstate hcount hsent hopen =>
      exact .dispatched hstate hcount (hdispatches ▸ hsent) (happlied ▸ hopen)
  | ended h =>
      exact .ended { h with
        result := hresults h.result
        applied := happlied ▸ h.applied }

theorem Stage.of_queued (h : Stage s r) (hstate : r.state = JobState.queued.value) :
    r.retryCount = 0 ∧ (r.jobId, 0) ∉ generations s.dispatches := by
  cases h with
  | queued _ hcount hnew => exact ⟨hcount, hnew⟩
  | dispatched hstate' =>
      rw [hstate] at hstate'
      exact absurd hstate' (by decide)
  | ended h => exact absurd hstate h.state_ne.1

end Rows

/-! ## Steps -/

section Steps

variable {s t : State} {repr : Json → String} {a : Action}

/-- The steps that clients and operators do not take. -/
def Action.passes : Action → Bool
  | tick _ _ _ => true
  | deliverDispatch _ _ => true
  | deliverResult _ _ _ => true
  | _ => false

/-- What the control plane does in a step of the pipeline. -/
structure OnTable (a : Action) (b : ControlPlane.Action) : Prop where
  request : ∀ q jobId, b = .request (.transition q jobId) → a = .request (.transition q jobId)
  write : ∀ i now, b = .write i now → a.passes = false

theorem onTable_step (a : Action)
    (hstep : (a.onTable.bind s.system.step).map (fun system => { s with system }) = some t) :
    ∃ b, s.system.step b = some t.system ∧ OnTable a b := by
  obtain ⟨system, hsystem, rfl⟩ := Option.map_eq_some_iff.mp hstep
  obtain ⟨b, hb, hbstep⟩ := Option.bind_eq_some_iff.mp hsystem
  refine ⟨b, hbstep, ?_, ?_⟩
  · rintro q jobId rfl
    cases a <;> cases hb
    rfl
  · rintro i now rfl
    cases a <;> cases hb
    rfl

/-- All that a step does to the table is one step of the control plane. -/
theorem Traced.table_step (hs : Traced s) (hstep : s.step repr a = some t) :
    t.system = s.system ∨ ∃ b, s.system.step b = some t.system ∧ OnTable a b := by
  cases a with
  | tick runner E now =>
      obtain ⟨httl, rfl⟩ := step_tick_iff.mp hstep
      obtain ⟨system, published, hclaim, -, htick⟩ := tick_spec (s := s) (E := E) httl
      rw [htick]
      exact Or.inr ⟨_, hclaim, ⟨fun q jobId h => (by cases h), fun i now h => (by cases h)⟩⟩
  | deliverDispatch i outcome =>
      obtain ⟨hstatus, m, hm, rfl⟩ := step_deliverDispatch_iff.mp hstep
      have hsent := (hs.posted m (List.mem_of_getElem? hm)).sent
      rcases deliverDispatch_cases (s := s) hsent hstatus with
        hsame | ⟨key, task, text, -, -, -, -, hdeliver⟩
      · rw [hsame]
        exact Or.inl rfl
      · rw [hdeliver]
        exact Or.inl rfl
  | deliverResult i now clock =>
      obtain ⟨m, hm, rfl⟩ := Option.map_eq_some_iff.mp hstep
      rcases hs.deliverResult_cases (List.mem_of_getElem? hm) now clock with
        hsame | ⟨key, event, system, -, -, -, hresult, hdeliver⟩
      · rw [hsame]
        exact Or.inl rfl
      · rw [hdeliver]
        exact Or.inr ⟨_, hresult, ⟨fun q jobId h => (by cases h), fun i now h => (by cases h)⟩⟩
  | request q => exact Or.inr (onTable_step (.request q) hstep)
  | write i now => exact Or.inr (onTable_step (.write i now) hstep)
  | scan E stamp now limit => exact Or.inr (onTable_step (.scan E stamp now limit) hstep)
  | requeueDeadLettered jobId now =>
      exact Or.inr (onTable_step (.requeueDeadLettered jobId now) hstep)

/-- Rows stay, with their ids and payloads. -/
theorem Traced.row_stays (hs : Traced s) (hstep : s.step repr a = some t) {r : JobRow}
    (hr : r ∈ s.system.jobs.rows) :
    ∃ r' ∈ t.system.jobs.rows, r'.jobId = r.jobId ∧ r'.payload = r.payload := by
  rcases hs.table_step hstep with hsame | ⟨b, hb, -⟩
  · rw [hsame]
    exact ⟨r, hr, rfl, rfl⟩
  · obtain ⟨r', hr', hpayload⟩ := payload_of_step hb (KeyedTable.find?_of_mem hr)
    obtain ⟨hmem, hid⟩ := KeyedTable.find?_eq_some_iff.mp hr'
    exact ⟨r', hmem, hid, hpayload⟩

/-- And no step but a write adds any. -/
theorem Traced.row_old (hs : Traced s) (hstep : s.step repr a = some t) (ha : a.passes = true)
    {r' : JobRow} (hr' : r' ∈ t.system.jobs.rows) :
    ∃ r ∈ s.system.jobs.rows, r.jobId = r'.jobId ∧ r.payload = r'.payload := by
  rcases hs.table_step hstep with hsame | ⟨b, hb, honTable⟩
  · rw [hsame] at hr'
    exact ⟨r', hr', rfl, rfl⟩
  · have hchange := System.step_rowChange hb r'.jobId
    rw [KeyedTable.find?_of_mem hr'] at hchange
    generalize ho : s.system.jobs.find? r'.jobId = o at hchange
    cases o with
    | none =>
        cases hchange with
        | created hi hr htenant =>
            rw [honTable.write _ _ rfl] at ha
            cases ha
    | some r =>
        obtain ⟨hmem, hid⟩ := KeyedTable.find?_eq_some_iff.mp ho
        exact ⟨r, hmem, hid, (frame_of_rowChange hchange).2.symm⟩

/-- A plain table has been plain all along. -/
theorem Traced.plain_before (hs : Traced s) (hstep : s.step repr a = some t)
    (hplain : Plain t.system.jobs) : Plain s.system.jobs :=
  hplain.of_rows fun _ hr => hs.row_stays hstep hr

/-- No request under way moves a job. -/
def Untouched (system : System) : Prop :=
  ∀ q jobId, Request.transition q jobId ∉ system.pending

theorem untouched_of_step {sys sys' : System} {b : ControlPlane.Action}
    (h : sys.step b = some sys') (hb : ∀ q jobId, b ≠ .request (.transition q jobId))
    (hs : Untouched sys) : Untouched sys' := by
  intro q jobId hq
  cases b with
  | request q' =>
      simp only [System.step] at h
      split at h
      · cases h
        rcases List.mem_append.mp hq with hq | hq
        · exact hs q jobId hq
        · rw [← List.mem_singleton.mp hq] at hb
          exact hb q jobId rfl
      · cases h
        exact hs q jobId hq
  | write i now =>
      simp only [System.step, Option.map_eq_some_iff] at h
      obtain ⟨q', -, rfl⟩ := h
      exact hs q jobId (List.mem_of_mem_eraseIdx hq)
  | _ =>
      cases h
      exact hs q jobId hq

end Steps

/-! ## The invariant -/

structure FirstInv (s : State) : Prop where
  inv : Inv s
  first : ∀ m ∈ s.dispatches, m.retryCount = 0
  nodup : (generations s.dispatches).Nodup
  stage : ∀ r ∈ s.system.jobs.rows, Stage s r

theorem firstInv_start : FirstInv .start where
  inv := inv_start
  first m hm := by cases hm
  nodup := List.nodup_nil
  stage r hr := by cases hr

section Invariant

variable {s t : State} {repr : Json → String} {r : JobRow}

/-- A message has a row, which has its id. -/
theorem FirstInv.row_of_message (hs : FirstInv s) {m : Dispatch} (hm : m ∈ s.dispatches) :
    ∃ r ∈ s.system.jobs.rows, r.jobId = m.event.jobId ∧ r.payload = m.event.payload := by
  obtain ⟨r, hr, hpayload⟩ := (hs.inv.scheduler.sent m hm).row
  obtain ⟨hmem, hid⟩ := KeyedTable.find?_eq_some_iff.mp hr
  exact ⟨r, hmem, hid, hpayload⟩

/-- **On a plain table**, every step of the pipeline is aligned. -/
theorem FirstInv.aligned (hs : FirstInv s) (hplain : Plain s.system.jobs) (a : Action) :
    Aligned s a := by
  have hrow : ∀ {runner : SchedulerTickRunner} {E : Executor} {r : JobRow},
      r ∈ JobRepository.schedulableRows s.system.jobs E runner.maxJobsPerTick.toNat →
        r ∈ s.system.jobs.rows := fun hr => (JobRepository.mem_schedulableRows hr).1
  cases a with
  | tick runner E now =>
      intro _ r hr
      refine ⟨hplain.clean.1 r (hrow hr), ?_, ?_⟩
      · intro m hm _ hstrip
        obtain ⟨r', hr', hid, -⟩ := hs.row_of_message hm
        change strip m.event.jobId = strip r.jobId at hstrip
        rw [← hid] at hstrip
        exact hid.symm.trans (hplain.clean.2 r' hr' r (hrow hr) hstrip)
      · intro r' hr' _ hstrip
        exact hplain.clean.2 r' (hrow hr') r (hrow hr) hstrip
  | deliverDispatch i outcome =>
      intro _ m hm
      have hmem := List.mem_of_getElem? hm
      obtain ⟨r, hr, -, hpayload⟩ := hs.row_of_message hmem
      refine ⟨hs.first m hmem, ?_⟩
      rw [Dispatch.Readable, ← hpayload]
      exact hplain.readable r hr
  | _ => trivial

/-- What has been applied was sent. -/
theorem FirstInv.sent_of_applied (hs : FirstInv s) {g : Generation} (hg : g ∈ s.applied) :
    g ∈ generations s.dispatches :=
  (hs.inv.worker.of_executed (hs.inv.results.applied hg)).1

/-- A step of the table that creates rows at most. -/
theorem FirstInv.system (hs : FirstInv s) {b : ControlPlane.Action} {system : System}
    (hstep : s.system.step b = some system)
    (hrows : ∀ k, s.system.jobs.find? k = system.jobs.find? k ∨
      s.system.jobs.find? k = none ∧ ∃ r, system.jobs.find? k = some r ∧
        JobRepository.Created JobState.queued.value r)
    (hresult : ∀ event now clock, b ≠ .result event now clock) :
    FirstInv { s with system } where
  inv := hs.inv.system hstep hresult
  first := hs.first
  nodup := hs.nodup
  stage r hr := by
    have hfind := KeyedTable.find?_of_mem hr
    rcases hrows r.jobId with hsame | ⟨hnone, r', hr', hcreated⟩
    · rw [hfind] at hsame
      have hold := (KeyedTable.find?_eq_some_iff.mp hsame).1
      exact (hs.stage r hold).mono rfl rfl (List.Subset.refl _)
    · rw [hfind] at hr'
      obtain rfl := Option.some.inj hr'
      refine .queued hcreated.state_eq hcreated.retryCount ?_
      -- a message would have a row
      intro hsent
      obtain ⟨m, hm, hgeneration⟩ := List.mem_map.mp hsent
      obtain ⟨r', hr', hid, -⟩ := hs.row_of_message hm
      have hpair : m.event.jobId = r.jobId := congrArg Prod.fst hgeneration
      rw [← hpair, ← hid, KeyedTable.find?_of_mem hr'] at hnone
      cases hnone

/-- Clients only add rows. -/
theorem FirstInv.onTable (hs : FirstInv s) (huntouched : Untouched s.system) {a : Action}
    (hfirst : a.first = true)
    (hstep : (a.onTable.bind s.system.step).map (fun system => { s with system }) = some t) :
    FirstInv t := by
  obtain ⟨system, hsystem, rfl⟩ := Option.map_eq_some_iff.mp hstep
  obtain ⟨b, hb, hbstep⟩ := Option.bind_eq_some_iff.mp hsystem
  refine hs.system hbstep ?_ (onTable_ne_result hb)
  intro k
  have hchange := System.step_rowChange hbstep k
  generalize s.system.jobs.find? k = o, system.jobs.find? k = o' at hchange
  cases a with
  | request q =>
      cases hb
      cases hchange with
      | same => exact Or.inl rfl
  | write i now =>
      cases hb
      cases hchange with
      | same => exact Or.inl rfl
      | created hi hr htenant => exact Or.inr ⟨rfl, _, rfl, hr⟩
      | written hi => exact absurd (List.mem_of_getElem? hi) (huntouched _ _)
  | scan E stamp now limit => cases hfirst
  | requeueDeadLettered jobId now => cases hfirst
  | tick runner E now => cases hb
  | deliverDispatch i outcome => cases hb
  | deliverResult i now clock => cases hb

/-- The rows after a tick. -/
theorem row_of_tick {runner : SchedulerTickRunner} {E : Executor} {now : ℤ}
    (httl : 0 < runner.dispatchDedupeTtlSeconds) {r' : JobRow}
    (hr' : r' ∈ (s.tick runner E now).system.jobs.rows) :
    ∃ r ∈ s.system.jobs.rows, r.jobId = r'.jobId ∧
      (r' = r ∧ r.jobId ∉ (jobsOf s runner E now).map JobRecord.jobId ∨
        r' = (setDispatched now).set r ∧ r.state = JobState.queued.value ∧
          ∃ job ∈ jobsOf s runner E now, job.jobId = r.jobId ∧ job.retryCount = r.retryCount) := by
  obtain ⟨T', hclaim, hfind, -⟩ := Dispatching.claim_spec s.system.jobs runner E now
  obtain ⟨system, published, hstep, -, htick⟩ := @tick_spec s runner E now httl
  have hjobs : system.jobs = T' := by
    simp only [System.step, System.tableOf, hclaim] at hstep
    rw [← Option.some.inj hstep]
  have hrow := KeyedTable.find?_of_mem hr'
  rw [htick] at hrow
  change system.jobs.find? r'.jobId = some r' at hrow
  rw [hjobs, hfind] at hrow
  obtain ⟨r, hr, heq⟩ := Option.map_eq_some_iff.mp hrow
  obtain ⟨hmem, hid⟩ := KeyedTable.find?_eq_some_iff.mp hr
  refine ⟨r, hmem, hid, ?_⟩
  split at heq
  · rename_i hclaimed
    obtain ⟨job, hjob, hjobid⟩ := List.mem_map.mp hclaimed
    obtain ⟨r₀, hr₀, hqueued, hid₀, hcount⟩ := Dispatching.mem_claimedJobs
      (s := { system := s.system, keys := [], log := [], claims := [], results := [] }) hjob
    have hsame : r₀ = r := by
      have hkey := KeyedTable.find?_of_mem hr₀
      rw [← hid₀, hjobid, KeyedTable.find?_of_mem hmem] at hkey
      exact (Option.some.inj hkey).symm
    rw [hsame] at hqueued hcount
    exact Or.inr ⟨heq.symm, hqueued, job, hjob, hjobid, hcount⟩
  · exact Or.inl ⟨heq.symm, ‹_›⟩

/-- **A tick** sends each row that it claims on its way. -/
theorem FirstInv.tick (hs : FirstInv s) (hplain : Plain s.system.jobs)
    {runner : SchedulerTickRunner} {E : Executor} {now : ℤ}
    (httl : 0 < runner.dispatchDedupeTtlSeconds) : FirstInv (s.tick runner E now) := by
  obtain ⟨hinv, hall⟩ := hs.inv.tick (hs.aligned hplain (.tick runner E now)) httl
  obtain ⟨system, published, hstep, hpublished, htick⟩ := @tick_spec s runner E now httl
  have hclaimed : ∀ job ∈ published, job ∈ jobsOf s runner E now :=
    fun job hjob => hpublished.sublist.subset hjob
  have hdispatches : (s.tick runner E now).dispatches =
      s.dispatches ++ published.map messageOf := by rw [htick]
  have happlied : (s.tick runner E now).applied = s.applied := by rw [htick]
  have hresults : (s.tick runner E now).results = s.results := by rw [htick]
  -- a job that is published was queued, and no message was sent for it before
  have hfresh : ∀ job ∈ published, job.retryCount = 0 ∧
      (job.jobId, 0) ∉ generations s.dispatches := by
    intro job hjob
    obtain ⟨r, hr, rfl⟩ := Dispatching.mem_claimedJobs_iff.mp (hclaimed job hjob)
    obtain ⟨hmem, hqueued, -⟩ := JobRepository.mem_schedulableRows hr
    exact (hs.stage r hmem).of_queued hqueued
  refine ⟨hinv, ?_, ?_, ?_⟩
  · intro m hm
    rw [hdispatches] at hm
    rcases List.mem_append.mp hm with hm | hm
    · exact hs.first m hm
    · obtain ⟨job, hjob, rfl⟩ := List.mem_map.mp hm
      exact (hfresh job hjob).1
  · rw [hdispatches, generations, List.map_append, List.nodup_append]
    refine ⟨hs.nodup, ?_, ?_⟩
    · have hids : ((published.map messageOf).map Dispatch.generation).map Prod.fst =
          published.map JobRecord.jobId := by
        rw [List.map_map, List.map_map]
        rfl
      refine List.Nodup.of_map Prod.fst ?_
      rw [hids]
      exact (Dispatching.claimedJobs_ids_nodup s.system.jobs runner E now).sublist
        (hpublished.sublist.map _)
    · intro g hg g' hg' heq
      rw [heq] at hg
      rw [List.map_map] at hg'
      obtain ⟨job, hjob, rfl⟩ := List.mem_map.mp hg'
      obtain ⟨hcount, hnew⟩ := hfresh job hjob
      refine hnew ?_
      have hgeneration : (Dispatch.generation ∘ messageOf) job = (job.jobId, 0) := by
        rw [← hcount]
        rfl
      rwa [hgeneration] at hg
  · intro r' hr'
    obtain ⟨r, hr, hid, ⟨rfl, hnot⟩ | ⟨rfl, hqueued, job, hjob, hjobid, hcount⟩⟩ :=
      row_of_tick httl hr'
    · have hstage := hs.stage r' hr
      cases hstage with
      | queued hstate hcount hnew =>
          refine .queued hstate hcount ?_
          rw [hdispatches, mem_generations_append_iff, not_or]
          refine ⟨hnew, ?_⟩
          rintro ⟨job, hjob, heq⟩
          have hjobid : r'.jobId = job.jobId := congrArg Prod.fst heq
          rw [hjobid] at hnot
          exact hnot (List.mem_map_of_mem (hclaimed job hjob))
      | dispatched hstate hcount hsent hopen =>
          refine .dispatched hstate hcount ?_ (happlied ▸ hopen)
          rw [hdispatches]
          exact mem_generations_append_iff.mpr (Or.inl hsent)
      | ended h =>
          exact .ended { h with
            result := hresults ▸ h.result
            applied := happlied ▸ h.applied }
    · obtain ⟨hzero, hnew⟩ := (hs.stage r hr).of_queued hqueued
      refine .dispatched rfl hzero ?_ ?_
      · have hsent := hall job hjob
        rw [hjobid, hcount, hzero] at hsent
        exact hsent
      · rw [happlied]
        exact fun hg => hnew (hs.sent_of_applied hg)

/-- **A dispatch delivery** leaves the rows where they are. -/
theorem FirstInv.deliverDispatch (hs : FirstInv s) (hplain : Plain s.system.jobs) {i : ℕ}
    {outcome : ExecutionResult} {m : Dispatch} (hi : s.dispatches[i]? = some m)
    (hstatus : outcome.status ∈ Worker.resultStatuses) :
    FirstInv (s.deliverDispatch m outcome) := by
  have hm := List.mem_of_getElem? hi
  obtain ⟨hfirst, hread⟩ := hs.aligned hplain (.deliverDispatch i outcome) hstatus m hi
  obtain ⟨hinv, -⟩ := hs.inv.deliverDispatch hm hfirst hread hstatus
  rcases deliverDispatch_cases (s := s) (hs.inv.scheduler.sent m hm) hstatus with
    hsame | ⟨key, task, text, -, -, -, -, hdeliver⟩
  · rwa [hsame]
  rw [hdeliver] at hinv ⊢
  exact ⟨hinv, hs.first, hs.nodup, fun r hr =>
    (hs.stage r hr).mono rfl rfl (List.subset_append_left _ _)⟩

/-- **A result whose key is free** is applied. -/
theorem deliverResult_written (repr : Json → String) {m : Result} {outcome : ExecutionResult}
    {text : String} (hstatus : outcome.status ∈ Worker.resultStatuses)
    (htext : (newWorkerResultEvent m.generation.1 outcome workerIdentity).toJSON = .ok text)
    (hvalue : m.message.value = text.toUTF8) (hid : strip m.generation.1 ≠ "")
    (hrow : ∃ r, s.system.jobs.find? m.generation.1 = some r) {key : String}
    (hkey : resultKeyOf m.generation = .ok key) (hfree : key ∉ s.resultKeys) (now clock : ℤ) :
    ∃ event : ValidResult, event.1.jobId = m.generation.1 ∧ event.1.status = outcome.status ∧
      s.deliverResult repr m now clock =
        { s with
          system := { s.system with
            jobs := (ResultStateHandler.handle s.system.jobs now clock event.1).1 }
          resultKeys := key :: s.resultKeys
          applied := s.applied ++ [m.generation] } := by
  have hworker : strip workerIdentity ≠ "" := by decide +kernel
  have hvalid : (reported (newWorkerResultEvent m.generation.1 outcome workerIdentity)).Valid :=
    ⟨rfl, hid, mem_allowedStatuses hstatus, hworker, le_rfl⟩
  have hparse := parseWorkerResultEvent_toJSON repr htext
  rw [WorkerResultEvent.validate_eq_ok_iff.mpr hvalid, ← hvalue] at hparse
  refine ⟨⟨_, hvalid⟩, rfl, rfl, ?_⟩
  have heventkey : workerResultKey
      (reported (newWorkerResultEvent m.generation.1 outcome workerIdentity)).jobId
      (reported (newWorkerResultEvent m.generation.1 outcome workerIdentity)).attempt =
        .ok key := hkey
  have hclaim : claimedKeys.tryClaim s.resultKeys key defaultDedupeTtlSeconds = _ :=
    claimedKeys_tryClaim (strip_key_ne heventkey) (by decide)
  rw [if_neg hfree] at hclaim
  have hok := (ResultStateHandler.handle_ok_iff s.system.jobs now clock hvalid).mpr hrow
  rcases hhandle : ResultStateHandler.handle s.system.jobs now clock
    (reported (newWorkerResultEvent m.generation.1 outcome workerIdentity)) with ⟨T', r⟩
  rw [hhandle] at hok
  obtain rfl : r = .ok () := hok
  simp only [State.deliverResult, ResultConsumerRunner.processMessage, hparse, heventkey, hclaim,
    hhandle]

/-- **A result delivery** ends its job, if it is the first of its generation. -/
theorem FirstInv.deliverResult (hs : FirstInv s) (htraced : Traced s) {m : Result}
    (hm : m ∈ s.results) (now clock : ℤ) : FirstInv (s.deliverResult repr m now clock) := by
  have hinv : Inv (s.deliverResult repr m now clock) := (hs.inv.deliverResult hm now clock).1
  rcases @Traced.deliverResult_cases s repr htraced m hm now clock with
    hsame | ⟨key, -, -, hkey, hfree, -⟩
  · rwa [hsame]
  obtain ⟨hexecuted, hreport⟩ := hs.inv.worker.reported m hm
  obtain ⟨hid, hrow⟩ := hs.inv.of_executed hexecuted
  obtain ⟨outcome, text, hstatus, htext, hvalue⟩ := hreport.written
  have hwritten : ∃ text, (newWorkerResultEvent m.generation.1 outcome workerIdentity).toJSON =
      .ok text ∧ m.message.value = text.toUTF8 := ⟨text, htext, hvalue⟩
  obtain ⟨event, heventid, heventstatus, hdeliver⟩ :=
    deliverResult_written repr hstatus htext hvalue hid hrow hkey hfree now clock
  rw [hdeliver] at hinv ⊢
  refine ⟨hinv, hs.first, hs.nodup, ?_⟩
  intro r' hr'
  have hfind := KeyedTable.find?_of_mem hr'
  change (ResultStateHandler.handle s.system.jobs now clock event.1).1.find? r'.jobId =
    some r' at hfind
  rw [ResultStateHandler.find?_handle _ _ _ event.2] at hfind
  split at hfind
  · rename_i hjob
    obtain ⟨r, hr, rfl⟩ := Option.map_eq_some_iff.mp hfind
    obtain ⟨hmem, hrid⟩ := KeyedTable.find?_eq_some_iff.mp hr
    have hgeneration : m.generation = (r.jobId, 0) :=
      Prod.ext (heventid.symm.trans (hjob.symm.trans hrid.symm)) hreport.first
    have hnot : (r.jobId, 0) ∉ s.applied := by
      rw [← hgeneration]
      exact fun hg => hfree (htraced.credited.mem hg hkey)
    have hstage := hs.stage r hmem
    cases hstage with
    | queued hstate hcount hnew =>
        rw [← hgeneration] at hnew
        exact absurd (hs.inv.worker.of_executed hexecuted).1 hnew
    | ended h =>
        rw [← h.generation] at hnot
        exact absurd h.applied hnot
    | dispatched hstate hcount hsent hopen =>
        refine Stage.ended (m := m) ⟨hm, ?_, ?_, hstatus, ?_, ?_⟩
        · rw [← hrid]
          exact hgeneration
        · exact List.mem_append_right _ (List.mem_singleton.mpr rfl)
        · rw [hjob, heventid]
          exact hwritten
        · exact endedAs_resultUpdate heventstatus hcount now clock
  · rename_i hjob
    have hstage := hs.stage r' (KeyedTable.find?_eq_some_iff.mp hfind).1
    cases hstage with
    | queued hstate hcount hnew => exact .queued hstate hcount hnew
    | dispatched hstate hcount hsent hopen =>
        refine .dispatched hstate hcount hsent ?_
        intro hg
        rcases List.mem_append.mp hg with hg | hg
        · exact hopen hg
        · -- the result is of another job
          have heq : (r'.jobId, 0) = m.generation := List.mem_singleton.mp hg
          exact hjob ((congrArg Prod.fst heq).trans heventid.symm)
    | ended h => exact .ended { h with applied := List.mem_append_left _ h.applied }

/-- **The steps of the pipeline itself**, on a plain table. -/
theorem FirstInv.passes (hs : FirstInv s) (htraced : Traced s) (hplain : Plain s.system.jobs)
    {a : Action} (ha : a.passes = true) (hstep : s.step repr a = some t) : FirstInv t := by
  cases a with
  | tick runner E now =>
      obtain ⟨httl, rfl⟩ := step_tick_iff.mp hstep
      exact hs.tick hplain httl
  | deliverDispatch i outcome =>
      obtain ⟨hstatus, m, hi, rfl⟩ := step_deliverDispatch_iff.mp hstep
      exact hs.deliverDispatch hplain hi hstatus
  | deliverResult i now clock =>
      obtain ⟨m, hi, rfl⟩ := Option.map_eq_some_iff.mp hstep
      exact hs.deliverResult htraced (List.mem_of_getElem? hi) now clock
  | _ => cases ha

/-- **One step** on a plain table. -/
theorem FirstInv.step (hs : FirstInv s) (htraced : Traced s) (huntouched : Untouched s.system)
    (hplain : Plain s.system.jobs) {a : Action} (hfirst : a.first = true)
    (hstep : s.step repr a = some t) : FirstInv t := by
  cases a with
  | request q => exact hs.onTable huntouched hfirst hstep
  | write i now => exact hs.onTable huntouched hfirst hstep
  | scan E stamp now limit => cases hfirst
  | requeueDeadLettered jobId now => cases hfirst
  | tick runner E now => exact hs.passes htraced hplain rfl hstep
  | deliverDispatch i outcome => exact hs.passes htraced hplain rfl hstep
  | deliverResult i now clock => exact hs.passes htraced hplain rfl hstep

end Invariant

/-! ## Runs -/

section Runs

variable {repr : Json → String} {as : List Action} {s : State}

theorem firstInv_of_run (h : (machine repr).run .start as = some s)
    (hfirst : ∀ a ∈ as, a.first = true) (hplain : Plain s.system.jobs) : FirstInv s := by
  have heach : (machine repr).EachStep (fun _ a => a.first = true) .start as :=
    Machine.eachStep_of_splits fun pre a post _ hsplit _ => hfirst a (by simp [hsplit])
  have hall : Traced s ∧ Untouched s.system ∧ (Plain s.system.jobs → FirstInv s) := by
    refine Machine.run_invariant_of_eachStep (P := fun s => Traced s ∧ Untouched s.system ∧
      (Plain s.system.jobs → FirstInv s)) ?_ heach ⟨traced_start, ?_, fun _ => firstInv_start⟩ h
    · rintro s a t ⟨htraced, huntouched, hs⟩ hfirst hstep
      refine ⟨htraced.step hstep, ?_, ?_⟩
      · rcases htraced.table_step hstep with hsame | ⟨b, hb, hrequest⟩
        · rwa [hsame]
        · refine untouched_of_step hb ?_ huntouched
          rintro q jobId heq
          rw [hrequest.request q jobId heq] at hfirst
          cases hfirst
      · intro hplain
        have hbefore := htraced.plain_before hstep hplain
        exact (hs hbefore).step htraced huntouched hbefore hfirst hstep
    · intro q jobId hq
      cases hq
  exact hall.2.2 hplain

/-- **Everything has ended** once all of it has been handed on. -/
theorem FirstInv.ended (hs : FirstInv s) (htraced : Traced s) (hquiet : Quiet s) {r : JobRow}
    (hr : r ∈ s.system.jobs.rows) : ∃ m outcome, EndedBy s r m outcome := by
  cases hs.stage r hr with
  | queued hstate => exact absurd hstate (hquiet.queued r hr)
  | ended h => exact ⟨_, _, h⟩
  | dispatched hstate hcount hsent hopen =>
      obtain ⟨m, hm, hgeneration⟩ := List.mem_map.mp hsent
      have hexecuted := hquiet.dispatches m hm
      rw [← htraced.reported] at hexecuted
      obtain ⟨m', hm', heq⟩ := List.mem_map.mp hexecuted
      have happlied := hquiet.results m' hm'
      rw [heq, hgeneration] at happlied
      exact absurd happlied hopen

theorem first_attempts (h : (machine repr).run .start as = some s)
    (hfirst : ∀ a ∈ as, a.first = true) (hplain : Plain s.system.jobs) :
    FirstAttempts repr s where
  stage := (firstInv_of_run h hfirst hplain).stage
  dispatched_once := (firstInv_of_run h hfirst hplain).nodup
  executed_once := by
    have honce := (once_of_run h).executed
    rw [← Function.comp_def (fun g : Generation => Worker.trimSpace g.1) Prod.fst,
      ← List.map_map] at honce
    exact List.Nodup.of_map _ honce
  applied_once := List.Nodup.of_map _ (once_of_run h).applied
  handed_on a :=
    faithful_of_aligned (firstInv_of_run h hfirst hplain).inv
      ((firstInv_of_run h hfirst hplain).aligned hplain a)
  ended hquiet r hr := (firstInv_of_run h hfirst hplain).ended (traced_of_run h) hquiet hr

/-! ### No dead ends -/

/-- The rows that wait for a tick. -/
def State.queuedRows (s : State) : List JobRow :=
  s.system.jobs.rows.filter fun r => r.state = JobState.queued.value

/-- The same jobs, with the same payloads. -/
structure SameJobs (s t : State) : Prop where
  stay : ∀ r ∈ s.system.jobs.rows, ∃ r' ∈ t.system.jobs.rows, r'.jobId = r.jobId
  old : ∀ r' ∈ t.system.jobs.rows, ∃ r ∈ s.system.jobs.rows,
    r.jobId = r'.jobId ∧ r.payload = r'.payload

theorem SameJobs.refl (s : State) : SameJobs s s :=
  ⟨fun r hr => ⟨r, hr, rfl⟩, fun r hr => ⟨r, hr, rfl, rfl⟩⟩

theorem SameJobs.trans {t u : State} (h : SameJobs s t) (h' : SameJobs t u) : SameJobs s u where
  stay r hr := by
    obtain ⟨r', hr', hid⟩ := h.stay r hr
    obtain ⟨r'', hr'', hid'⟩ := h'.stay r' hr'
    exact ⟨r'', hr'', hid'.trans hid⟩
  old r'' hr'' := by
    obtain ⟨r', hr', hid', hpayload'⟩ := h'.old r'' hr''
    obtain ⟨r, hr, hid, hpayload⟩ := h.old r' hr'
    exact ⟨r, hr, hid.trans hid', hpayload.trans hpayload'⟩

theorem SameJobs.step {t : State} {a : Action} (hs : Traced s) (hstep : s.step repr a = some t)
    (ha : a.passes = true) : SameJobs s t where
  stay r hr := by
    obtain ⟨r', hr', hid, -⟩ := hs.row_stays hstep hr
    exact ⟨r', hr', hid⟩
  old _ hr' := hs.row_old hstep ha hr'

/-- What holds of a state between the steps. -/
structure Between (s : State) : Prop extends FirstInv s where
  traced : Traced s
  plain : Plain s.system.jobs

theorem Between.step {t : State} (hs : Between s) {a : Action} (ha : a.passes = true)
    (hstep : s.step repr a = some t) : Between t where
  toFirstInv := hs.toFirstInv.passes hs.traced hs.plain ha hstep
  traced := hs.traced.step hstep
  plain := hs.plain.of_rows (SameJobs.step hs.traced hstep ha).old

/-- Each message of the dispatch topic is delivered once. -/
theorem Between.deliverDispatches (repr : Json → String) (hs : Between s)
    {outcome : ℕ → ExecutionResult}
    (houtcome : ∀ i, (outcome i).status ∈ Worker.resultStatuses) {n : ℕ}
    (hn : n ≤ s.dispatches.length) :
    ∃ t, (machine repr).run s ((List.range n).map fun i => .deliverDispatch i (outcome i)) =
        some t ∧
      Between t ∧ SameJobs s t ∧ t.dispatches = s.dispatches ∧
      ∀ m ∈ s.dispatches.take n, m.generation ∈ t.executions.map Prod.fst := by
  induction n with
  | zero => exact ⟨s, rfl, hs, .refl s, rfl, fun m hm => by simp at hm⟩
  | succ n ih =>
      obtain ⟨t, hrun, ht, hsame, hdispatches, hall⟩ := ih (Nat.le_of_succ_le hn)
      have hi : s.dispatches[n]? = some (s.dispatches.get ⟨n, hn⟩) := List.getElem?_eq_getElem hn
      generalize s.dispatches.get ⟨n, hn⟩ = m at hi
      have hstep : t.step repr (.deliverDispatch n (outcome n)) =
          some (t.deliverDispatch m (outcome n)) :=
        step_deliverDispatch_iff.mpr ⟨houtcome n, m, by rw [hdispatches, hi], rfl⟩
      have hm : m ∈ t.dispatches := hdispatches ▸ List.mem_of_getElem? hi
      obtain ⟨hfirst, hread⟩ := ht.aligned ht.plain (.deliverDispatch n (outcome n)) (houtcome n) m
        (by rw [hdispatches]; exact hi)
      obtain ⟨-, e, he, heq, -⟩ := ht.inv.deliverDispatch hm hfirst hread (houtcome n)
      have hgrown : t.executions ⊆ (t.deliverDispatch m (outcome n)).executions ∧
          (t.deliverDispatch m (outcome n)).dispatches = t.dispatches := by
        rcases deliverDispatch_cases (s := t) (ht.inv.scheduler.sent m hm) (houtcome n) with
          hsame | ⟨key, task, text, -, -, -, -, hdeliver⟩
        · rw [hsame]
          exact ⟨List.Subset.refl _, rfl⟩
        · rw [hdeliver]
          exact ⟨List.subset_append_left _ _, rfl⟩
      refine ⟨_, ?_, ht.step rfl hstep, hsame.trans (.step ht.traced hstep rfl),
        hgrown.2.trans hdispatches, ?_⟩
      · rw [List.range_succ, List.map_append]
        exact (machine repr).run_snoc_iff.mpr ⟨t, hrun, hstep⟩
      · intro m' hm'
        rw [List.take_add_one, hi, Option.toList_some] at hm'
        rcases List.mem_append.mp hm' with hm' | hm'
        · obtain ⟨e', he', heq'⟩ := List.mem_map.mp (hall m' hm')
          exact List.mem_map.mpr ⟨e', hgrown.1 he', heq'⟩
        · rw [List.mem_singleton.mp hm']
          exact List.mem_map.mpr ⟨e, he, heq⟩

/-- Each result is delivered once. -/
theorem Between.deliverResults (repr : Json → String) (hs : Between s) (now clock : ℤ) {n : ℕ}
    (hn : n ≤ s.results.length) :
    ∃ t, (machine repr).run s ((List.range n).map fun i => .deliverResult i now clock) = some t ∧
      Between t ∧ SameJobs s t ∧ t.dispatches = s.dispatches ∧ t.executions = s.executions ∧
      t.results = s.results ∧ ∀ m ∈ s.results.take n, m.generation ∈ t.applied := by
  induction n with
  | zero => exact ⟨s, rfl, hs, .refl s, rfl, rfl, rfl, fun m hm => by simp at hm⟩
  | succ n ih =>
      obtain ⟨t, hrun, ht, hsame, hdispatches, hexecutions, hresults, hall⟩ :=
        ih (Nat.le_of_succ_le hn)
      have hi : s.results[n]? = some (s.results.get ⟨n, hn⟩) := List.getElem?_eq_getElem hn
      generalize s.results.get ⟨n, hn⟩ = m at hi
      have hstep : t.step repr (.deliverResult n now clock) =
          some (t.deliverResult repr m now clock) := by
        show (t.results[n]?).map _ = _
        rw [hresults, hi, Option.map_some]
      have hm : m ∈ t.results := hresults ▸ List.mem_of_getElem? hi
      have happlied : m.generation ∈ (t.deliverResult repr m now clock).applied :=
        (ht.inv.deliverResult hm now clock).2
      have hgrown : t.applied ⊆ (t.deliverResult repr m now clock).applied ∧
          (t.deliverResult repr m now clock).dispatches = t.dispatches ∧
          (t.deliverResult repr m now clock).executions = t.executions ∧
          (t.deliverResult repr m now clock).results = t.results := by
        rcases @Traced.deliverResult_cases t repr ht.traced m hm now clock with
          hsame | ⟨key, event, system, -, -, -, -, hdeliver⟩
        · rw [hsame]
          exact ⟨List.Subset.refl _, rfl, rfl, rfl⟩
        · rw [hdeliver]
          exact ⟨List.subset_append_left _ _, rfl, rfl, rfl⟩
      refine ⟨_, ?_, ht.step rfl hstep, hsame.trans (.step ht.traced hstep rfl),
        hgrown.2.1.trans hdispatches, hgrown.2.2.1.trans hexecutions,
        hgrown.2.2.2.trans hresults, ?_⟩
      · rw [List.range_succ, List.map_append]
        exact (machine repr).run_snoc_iff.mpr ⟨t, hrun, hstep⟩
      · intro m' hm'
        rw [List.take_add_one, hi, Option.toList_some] at hm'
        rcases List.mem_append.mp hm' with hm' | hm'
        · exact hgrown.1 (hall m' hm')
        · rw [List.mem_singleton.mp hm']
          exact happlied

/-- A tick with room for all that is queued claims it all. -/
theorem Between.sent_of_tick (hs : Between s) {runner : SchedulerTickRunner} {E : Executor}
    (httl : 0 < runner.dispatchDedupeTtlSeconds) (hE : E.Unlocked)
    (hmax : s.queuedRows.length ≤ runner.maxJobsPerTick.toNat) (now : ℤ) :
    ∀ r ∈ (s.tick runner E now).system.jobs.rows,
      (r.jobId, 0) ∈ generations (s.tick runner E now).dispatches := by
  have ht : FirstInv (s.tick runner E now) := hs.toFirstInv.tick hs.plain httl
  intro r' hr'
  cases ht.stage r' hr' with
  | dispatched _ _ hsent _ => exact hsent
  | ended h => exact h.generation ▸ ht.sent_of_applied h.applied
  | queued hstate _ _ =>
      exfalso
      obtain ⟨r, hr, hid, ⟨rfl, hnot⟩ | ⟨rfl, -⟩⟩ := row_of_tick httl hr'
      · have hselected : r' ∈ rowsOf s runner E := by
          refine claimOrder.mem_selectTop_of_length_le ?_ (List.mem_filter.mpr ⟨hr, ?_⟩)
          · refine le_trans (List.Sublist.length_le ?_) hmax
            refine List.monotone_filter_right _ fun r hr => ?_
            exact (Bool.and_eq_true_iff.mp hr).1
          · simp [hstate, hE r'.jobId]
        have hjob := (@Dispatching.mem_claimedJobs_iff runner E now _ _).mpr ⟨r', hselected, rfl⟩
        exact hnot (List.mem_map.mpr ⟨_, hjob, rfl⟩)
      · change JobState.dispatched.value = _ at hstate
        exact absurd hstate (by decide)

/-- **No dead ends**: from any state one tick with room for all that is queued, and one delivery
of each message, end every job as the executor says. -/
theorem first_attempts_end (h : (machine repr).run .start as = some s)
    (hfirst : ∀ a ∈ as, a.first = true) (hplain : Plain s.system.jobs)
    {runner : SchedulerTickRunner} (httl : 0 < runner.dispatchDedupeTtlSeconds)
    (hmax : s.queuedRows.length ≤ runner.maxJobsPerTick.toNat) {E : Executor}
    (hE : E.Unlocked) (now clock : ℤ) {outcome : ℕ → ExecutionResult}
    (houtcome : ∀ i, (outcome i).status ∈ Worker.resultStatuses) :
    ∃ t₁ t₂ t, s.step repr (.tick runner E now) = some t₁ ∧
      (machine repr).run t₁ ((List.range t₁.dispatches.length).map fun i =>
        .deliverDispatch i (outcome i)) = some t₂ ∧
      (machine repr).run t₂ ((List.range t₂.results.length).map fun i =>
        .deliverResult i now clock) = some t ∧
      (∀ r ∈ s.system.jobs.rows, ∃ r' ∈ t.system.jobs.rows, r'.jobId = r.jobId) ∧
      ∀ r ∈ t.system.jobs.rows, ∃ m outcome, EndedBy t r m outcome := by
  have hs : Between s := ⟨firstInv_of_run h hfirst hplain, traced_of_run h, hplain⟩
  have hstep : s.step repr (.tick runner E now) = some (s.tick runner E now) :=
    step_tick_iff.mpr ⟨httl, rfl⟩
  have h₁ : Between (s.tick runner E now) := hs.step rfl hstep
  have hsent := hs.sent_of_tick httl hE hmax now
  have hsame₁ : SameJobs s (s.tick runner E now) := .step hs.traced hstep rfl
  obtain ⟨t₂, hrun₂, h₂, hsame₂, hdispatches₂, hexecuted⟩ :=
    h₁.deliverDispatches repr houtcome le_rfl
  obtain ⟨t, hrun, ht, hsame, hdispatches, hexecutions, hresults, happlied⟩ :=
    h₂.deliverResults repr now clock le_rfl
  rw [List.take_length] at hexecuted happlied
  have hquiet : Quiet t := by
    refine ⟨?_, ?_, ?_⟩
    · intro r' hr' hstate
      obtain ⟨r, hr, hid, -⟩ := (hsame₂.trans hsame).old r' hr'
      refine ((ht.stage r' hr').of_queued hstate).2 ?_
      rw [hdispatches, hdispatches₂, ← hid]
      exact hsent r hr
    · rw [hdispatches, hexecutions, hdispatches₂]
      exact hexecuted
    · rw [hresults]
      exact happlied
  exact ⟨s.tick runner E now, t₂, t, hstep, hrun₂, hrun,
    ((hsame₁.trans hsame₂).trans hsame).stay,
    fun r hr => ht.toFirstInv.ended ht.traced hquiet hr⟩

end Runs

/-! ## One job, from its enqueue on -/

namespace OneJob

def enqueued : List Action := [.request (.enqueue "job" Scenario.body), .write 0 10]

def runner : SchedulerTickRunner := { maxJobs_pos := defaultMaxJobs_pos }

theorem run_plain {β : Type} [DecidableEq β] (as : List Action) (f : State → β) (v : β)
    (h : ((machine fun _ => "").run .start as).any (fun s =>
      decide (Plain s.system.jobs) && decide (f s = v)) = true) :
    ∃ s, (machine fun _ => "").run .start as = some s ∧ Plain s.system.jobs ∧ f s = v := by
  obtain ⟨s, hs, h⟩ := (Option.any_eq_true _ _).mp h
  obtain ⟨hplain, hv⟩ := Bool.and_eq_true_iff.mp h
  exact ⟨s, hs, of_decide_eq_true hplain, of_decide_eq_true hv⟩

end OneJob

/-- Both messages come twice. -/
theorem first_attempts_redelivered :
    ∃ s, (machine fun _ => "").run .start OneJob.redelivered = some s ∧
      s.applied = [("job", 0)] ∧ FirstAttempts (fun _ => "") s := by
  obtain ⟨s, hs, hplain, happlied⟩ :=
    OneJob.run_plain OneJob.redelivered State.applied [("job", 0)] (by decide +kernel)
  exact ⟨s, hs, happlied, first_attempts hs (by decide) hplain⟩

/-- The job fails, and is to be tried again. -/
theorem first_attempts_end_enqueued :
    ∃ s t₁ t₂ t, (machine fun _ => "").run .start OneJob.enqueued = some s ∧
      s.step (fun _ => "") (.tick OneJob.runner .quiet 20) = some t₁ ∧
      (machine fun _ => "").run t₁ ((List.range t₁.dispatches.length).map fun i =>
        .deliverDispatch i OneJob.retryable) = some t₂ ∧
      (machine fun _ => "").run t₂ ((List.range t₂.results.length).map fun i =>
        .deliverResult i 20 20) = some t ∧
      ∀ r ∈ t.system.jobs.rows, ∃ m outcome, EndedBy t r m outcome := by
  obtain ⟨s, hs, hplain, hrows⟩ :=
    OneJob.run_plain OneJob.enqueued (fun s => s.queuedRows.length) 1 (by decide +kernel)
  have httl : 0 < OneJob.runner.dispatchDedupeTtlSeconds := by decide
  have hmax : s.queuedRows.length ≤ OneJob.runner.maxJobsPerTick.toNat := by
    rw [hrows]
    decide
  have hE : Executor.quiet.Unlocked := fun _ => rfl
  have houtcome : ∀ _ : ℕ, OneJob.retryable.status ∈ Worker.resultStatuses := fun _ => by decide
  obtain ⟨t₁, t₂, t, h₁, h₂, ht, -, hended⟩ :=
    first_attempts_end hs (by decide) hplain httl hmax hE 20 20 houtcome
  exact ⟨s, t₁, t₂, t, hs, h₁, h₂, ht, hended⟩

end KernelQ.Pipeline
