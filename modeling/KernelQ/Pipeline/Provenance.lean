import KernelQ.Pipeline.Deduplication

/-!
# Where the messages come from

No party of the pipeline makes anything up, in any run at all: a message on the dispatch topic
is of a row, with the tenant, the priority and the payload of that row; what the executor was
called with is what stands in such a message; there is one result for each execution, in the
order of the executions; and what has been applied has been executed.

The invariant needs no aligned steps. It is what remains of the one in `Deduplication` when
messages of different jobs may have the same key.
-/

namespace KernelQ.Pipeline

open KernelQ.Foundation KernelQ.ControlPlane
open Worker (ExecutionResult newWorkerResultEvent workerIdentity)

/-- The message is of the row: it has what a row never loses, and a `retry_count` that the row
has had. -/
structure OfRow (r : JobRow) (m : Dispatch) : Prop where
  tenantId : m.event.tenantId = r.tenantId
  priority : m.event.priority = r.priority
  payload : m.event.payload = r.payload
  retryCount : m.retryCount ≤ r.retryCount

/-- The task is what the worker reads of the message. -/
structure Carries (m : Dispatch) (task : Worker.Task) : Prop where
  jobId : task.jobId = m.event.jobId
  tenantId : task.tenantId = m.event.tenantId
  priority : task.priority = m.event.priority
  payload : ∃ entries : StringMap, task.payload = some entries ∧
    m.event.payload.fields.map entryOf = entries.map some

/-- **Nothing is made up** in a state of the pipeline. -/
structure Provenance (s : State) : Prop where
  dispatched : ∀ m ∈ s.dispatches, ∃ r, s.system.jobs.find? m.event.jobId = some r ∧ OfRow r m
  /-- Only the first attempt of a job is ever executed. -/
  executed : ∀ e ∈ s.executions, ∃ m ∈ s.dispatches,
    e.1 = m.generation ∧ m.retryCount = 0 ∧ Carries m e.2
  reported : s.results.map Result.generation = s.executions.map Prod.fst
  applied : ∀ g ∈ s.applied, g ∈ s.results.map Result.generation

/-! ## Rows -/

/-- What no step takes from a row. -/
structure Kept (r r' : JobRow) : Prop where
  tenantId : r'.tenantId = r.tenantId
  priority : r'.priority = r.priority
  payload : r'.payload = r.payload
  maxRetries : r'.maxRetries = r.maxRetries
  retryCount : r.retryCount ≤ r'.retryCount

theorem Kept.of_eq {r r' : JobRow} (htenant : r'.tenantId = r.tenantId)
    (hpriority : r'.priority = r.priority) (hpayload : r'.payload = r.payload)
    (hmax : r'.maxRetries = r.maxRetries) (hcount : r'.retryCount = r.retryCount) : Kept r r' :=
  ⟨htenant, hpriority, hpayload, hmax, hcount.ge⟩

theorem kept_resultUpdate (event : WorkerResultEvent) (now clock : ℤ) (r : JobRow) :
    Kept r ((ResultStateHandler.resultUpdate event now clock).set r) := by
  unfold ResultStateHandler.resultUpdate
  split
  · refine ⟨rfl, rfl, rfl, rfl, ?_⟩
    simp only [setRetryPolicy]
    split <;> omega
  · split <;> exact .of_eq rfl rfl rfl rfl rfl

section Table

variable {sys sys' : System} {a : ControlPlane.Action}

theorem kept_of_rowChange {r r' : JobRow} (h : System.RowChange sys a (some r) (some r')) :
    Kept r r' := by
  cases h with
  | applied hr => exact kept_resultUpdate _ _ _ r
  | _ => exact .of_eq rfl rfl rfl rfl rfl

theorem kept_of_step (h : sys.step a = some sys') {k : String} {r : JobRow}
    (hr : sys.jobs.find? k = some r) : ∃ r', sys'.jobs.find? k = some r' ∧ Kept r r' := by
  obtain ⟨r', hr'⟩ := System.find?_of_step h hr
  have hchange := System.step_rowChange h k
  rw [hr, hr'] at hchange
  exact ⟨r', hr', kept_of_rowChange hchange⟩

theorem OfRow.kept {r r' : JobRow} {m : Dispatch} (h : OfRow r m) (hkept : Kept r r') :
    OfRow r' m where
  tenantId := h.tenantId.trans hkept.tenantId.symm
  priority := by rw [h.priority, hkept.priority]
  payload := h.payload.trans hkept.payload.symm
  retryCount := h.retryCount.trans hkept.retryCount

/-- The message is well formed, and of a row of the table. -/
structure Posted (T : Jobs) (m : Dispatch) : Prop where
  job : ∃ job, m.event = .ofJob job ∧ Accepted job
  row : ∃ r, T.find? m.event.jobId = some r ∧ OfRow r m

theorem Posted.sent {T : Jobs} {m : Dispatch} (h : Posted T m) : Sent T m := by
  obtain ⟨r, hr, hrow⟩ := h.row
  exact ⟨h.job, r, hr, hrow.payload.symm⟩

theorem Posted.step {m : Dispatch} (hm : Posted sys.jobs m) (h : sys.step a = some sys') :
    Posted sys'.jobs m := by
  obtain ⟨r, hr, hrow⟩ := hm.row
  obtain ⟨r', hr', hkept⟩ := kept_of_step h hr
  exact ⟨hm.job, r', hr', hrow.kept hkept⟩

end Table

/-! ## The worker -/

section Worker

variable {s : State} {m : Dispatch} {outcome : ExecutionResult} {T : Jobs}

/-- The worker reads a readable message, with attempt 0, and all that stands in it. -/
theorem parse_sent (hsent : Sent T m) (hread : m.Readable) :
    ∃ event, Worker.parseDispatchEvent m.value = .ok event ∧ event.Valid ∧ event.attempt = 0 ∧
      Carries m (Worker.DispatchEventHandler.taskOf event) := by
  obtain ⟨entries, hentries⟩ := exists_entries hread
  obtain ⟨job, hevent, hjob⟩ := hsent.job
  have hnodup : ((([] : StringMap).map Prod.fst) ++ job.payload.fields.map Prod.fst).Nodup :=
    job.payload.nodup
  have hfields : job.payload.fields.map entryOf = entries.map some := by
    rw [hevent] at hentries
    exact hentries
  have hstore : storeEntries "payload" [] job.payload.fields = .ok entries :=
    (storeEntries_eq_ok_iff hnodup).mpr ⟨entries, hfields, rfl⟩
  have hparse := parseDispatchEvent_ofJob job hjob.jobId hjob.tenantId hjob.state hjob.priority
  rw [hstore, ← hevent] at hparse
  refine ⟨received job entries, hparse, valid_received hjob.jobId hjob.tenantId hjob.state entries,
    rfl, ?_, ?_, ?_, entries, rfl, hentries⟩
  all_goals
    rw [hevent]
    rfl

/-- **A dispatch delivery** does nothing, or it claims a new key, and executes and reports what
is in the message. -/
theorem deliverDispatch_cases (hsent : Sent T m) (hstatus : outcome.status ∈ Worker.resultStatuses) :
    s.deliverDispatch m outcome = s ∨
      ∃ key task text, executionKeyOf m.generation = .ok key ∧ key ∉ s.executionKeys ∧
        Carries m task ∧
        (newWorkerResultEvent m.event.jobId outcome workerIdentity).toJSON = .ok text ∧
        s.deliverDispatch m outcome =
          { s with
            executionKeys := key :: s.executionKeys
            executions := s.executions ++ [(m.generation, task)]
            results := s.results ++ [⟨⟨m.event.jobId, text.toUTF8⟩, m.generation⟩] } := by
  by_cases hread : m.Readable
  case neg => exact Or.inl (deliverDispatch_unreadable hsent hread)
  obtain ⟨event, hparse, hvalid, hattempt, hcarries⟩ := parse_sent hsent hread
  have hid : event.jobId = m.event.jobId := hcarries.jobId
  obtain ⟨key, hkey⟩ : ∃ key, Worker.executionIdempotencyKey event.jobId event.attempt = .ok key :=
    ⟨_, Worker.executionIdempotencyKey_eq_ok_iff.mpr ⟨hvalid.jobId, hvalid.attempt, rfl⟩⟩
  have hgeneration : executionKeyOf m.generation = .ok key := by
    rw [executionKeyOf, Dispatch.generation, ← hid, ← hattempt]
    exact hkey
  by_cases hmem : key ∈ s.executionKeys
  · left
    have hhandle : (Worker.consumerHandler outcome).handle ⟨⟨s.executionKeys, [], []⟩, 0, 0⟩ event =
        (⟨⟨s.executionKeys, [], []⟩, 1, 0⟩, .duplicateSkipped, none) :=
      Worker.handle_duplicate _ 0 0 hkey hmem
    simp only [State.deliverDispatch, Worker.processMessage, hparse, hhandle, List.map_nil,
      List.append_nil]
  · obtain ⟨text, htext, hhandle⟩ := Worker.handle_fresh ⟨s.executionKeys, [], []⟩ 0 0 hvalid
      hstatus hkey hmem
    rw [hid] at htext
    refine Or.inr ⟨key, Worker.DispatchEventHandler.taskOf event, text, hgeneration, hmem,
      hcarries, htext, ?_⟩
    simp only [State.deliverDispatch, Worker.processMessage, hparse, hhandle, List.map_nil,
      List.nil_append, List.map_cons, hid]

end Worker

/-! ## The invariant -/

structure Traced (s : State) : Prop where
  table : TableInv s.system
  posted : ∀ m ∈ s.dispatches, Posted s.system.jobs m
  executed : ∀ e ∈ s.executions, ∃ m ∈ s.dispatches,
    e.1 = m.generation ∧ m.retryCount = 0 ∧ Carries m e.2
  taken : Taken executionKeyOf s.executionKeys (s.executions.map Prod.fst)
  reports : ∀ m ∈ s.results, Report m
  reported : s.results.map Result.generation = s.executions.map Prod.fst
  applied : s.applied ⊆ s.executions.map Prod.fst
  credited : Taken resultKeyOf s.resultKeys s.applied
  retries : RetryInv s.system.jobs s.dispatches (s.executions.map Prod.fst)

theorem traced_start : Traced .start where
  table := tableInv_start
  posted m hm := by cases hm
  executed e he := by cases he
  taken := Taken.nil
  reports m hm := by cases hm
  reported := rfl
  applied := List.Subset.refl _
  credited := Taken.nil
  retries :=
    { rows := fun r hr => by cases hr
      sent := fun m hm => by cases hm }

theorem Traced.provenance {s : State} (hs : Traced s) : Provenance s where
  dispatched m hm := (hs.posted m hm).row
  executed := hs.executed
  reported := hs.reported
  applied g hg := by
    rw [hs.reported]
    exact hs.applied hg

section Steps

variable {s t : State} {repr : Json → String}

/-- A step of the table that applies no result. -/
theorem Traced.system (hs : Traced s) {a : ControlPlane.Action} {system : System}
    (hstep : s.system.step a = some system)
    (hresult : ∀ event now clock, a ≠ .result event now clock) : Traced { s with system } :=
  { hs with
    table := hs.table.step hstep
    posted := fun m hm => (hs.posted m hm).step hstep
    retries := hs.retries.step hstep fun event now clock h => absurd h (hresult event now clock) }

theorem Traced.onTable (hs : Traced s) (a : Action)
    (hstep : (a.onTable.bind s.system.step).map (fun system => { s with system }) = some t) :
    Traced t := by
  obtain ⟨system, hsystem, rfl⟩ := Option.map_eq_some_iff.mp hstep
  obtain ⟨b, hb, hbstep⟩ := Option.bind_eq_some_iff.mp hsystem
  exact hs.system hbstep (onTable_ne_result hb)

/-- The message of a claimed job is of the row that was claimed. -/
theorem posted_messageOf {runner : SchedulerTickRunner} {E : Executor} {now : ℤ} {system : System}
    (htable : TableInv s.system)
    (hstep : s.system.step (.claim E now runner.maxJobsPerTick) = some system) {job : JobRecord}
    (hjob : job ∈ jobsOf s runner E now) (hid : strip job.jobId ≠ "") :
    Posted system.jobs (messageOf job) := by
  obtain ⟨r, hr, rfl⟩ := Dispatching.mem_claimedJobs_iff.mp hjob
  have hrow : r ∈ s.system.jobs.rows := (JobRepository.mem_schedulableRows hr).1
  obtain ⟨r', hr', hkept⟩ := kept_of_step hstep (KeyedTable.find?_of_mem hrow)
  have hof : OfRow r (messageOf (rowToRecord ((setDispatched now).set r))) :=
    ⟨rfl, rfl, rfl, le_refl _⟩
  exact ⟨⟨_, rfl, hid, htable.tenants r hrow, rfl, r.priority_lt⟩, r', hr', hof.kept hkept⟩

theorem Traced.tick (hs : Traced s) {runner : SchedulerTickRunner} {E : Executor} {now : ℤ}
    (httl : 0 < runner.dispatchDedupeTtlSeconds) : Traced (s.tick runner E now) := by
  obtain ⟨system, published, hstep, hpublished, htick⟩ := tick_spec (s := s) (E := E) httl
  have hclaimed : ∀ job ∈ published, job ∈ jobsOf s runner E now :=
    fun job hjob => hpublished.sublist.subset hjob
  have hretries := (hs.retries.append (fromRows_published hclaimed)).step hstep
    fun event now clock h => by cases h
  rw [htick]
  refine { hs with
    table := hs.table.step hstep
    posted := ?_
    executed := ?_
    retries := hretries }
  · intro m hm
    rcases List.mem_append.mp hm with hm | hm
    · exact (hs.posted m hm).step hstep
    · obtain ⟨job, hjob, rfl⟩ := List.mem_map.mp hm
      -- only a job with a key is published
      exact posted_messageOf hs.table hstep (hclaimed job hjob)
        (attemptKey_eq_ok_iff.mp (hpublished.keyed job hjob)).1
  · intro e he
    obtain ⟨m, hm, hexecuted⟩ := hs.executed e he
    exact ⟨m, List.mem_append_left _ hm, hexecuted⟩

/-- A message whose key is free is of a first attempt: the first attempt of a job that has been
tried again was executed. -/
theorem Traced.first_of_free (hs : Traced s) {m : Dispatch} (hm : m ∈ s.dispatches) {key : String}
    (hkey : executionKeyOf m.generation = .ok key) (hfree : key ∉ s.executionKeys) :
    m.retryCount = 0 := by
  by_contra hcount
  exact hfree (hs.taken.mem (hs.retries.sent m hm hcount) hkey)

theorem Traced.deliverDispatch (hs : Traced s) {m : Dispatch} {outcome : ExecutionResult}
    (hm : m ∈ s.dispatches) (hstatus : outcome.status ∈ Worker.resultStatuses) :
    Traced (s.deliverDispatch m outcome) := by
  rcases deliverDispatch_cases (s := s) (hs.posted m hm).sent hstatus with
    hsame | ⟨key, task, text, hkey, hfree, hcarries, htext, hdeliver⟩
  · rwa [hsame]
  have hfirst := hs.first_of_free hm hkey hfree
  have hgrows : s.executions.map Prod.fst ⊆
      (s.executions ++ [(m.generation, task)]).map Prod.fst :=
    List.map_subset _ (List.subset_append_left _ _)
  rw [hdeliver]
  refine { hs with
    executed := ?_
    taken := ?_
    reports := ?_
    reported := ?_
    applied := fun g hg => hgrows (hs.applied hg)
    retries := hs.retries.mono hgrows }
  · intro e he
    rcases List.mem_append.mp he with he | he
    · exact hs.executed e he
    · rw [List.mem_singleton.mp he]
      exact ⟨m, hm, rfl, hfirst, hcarries⟩
  · rw [List.map_append]
    exact hs.taken.claim hkey
  · intro r hr
    rcases List.mem_append.mp hr with hr | hr
    · exact hs.reports r hr
    · rw [List.mem_singleton.mp hr]
      exact ⟨hfirst, outcome, text, hstatus, htext, rfl⟩
  · rw [List.map_append, List.map_append, hs.reported]
    rfl

/-- What has been executed has a row, and its id is not blank. -/
theorem Traced.of_executed (hs : Traced s) {g : Generation}
    (hg : g ∈ s.executions.map Prod.fst) :
    strip g.1 ≠ "" ∧ ∃ r, s.system.jobs.find? g.1 = some r := by
  obtain ⟨e, he, rfl⟩ := List.mem_map.mp hg
  obtain ⟨m, hm, heq, -⟩ := hs.executed e he
  have hposted := hs.posted m hm
  obtain ⟨r, hr, -⟩ := hposted.row
  rw [heq]
  exact ⟨hposted.sent.notBlank, r, hr⟩

/-- **A result delivery** does nothing, or it claims a new key and applies the result. -/
theorem Traced.deliverResult_cases (hs : Traced s) {m : Result} (hm : m ∈ s.results)
    (now clock : ℤ) :
    s.deliverResult repr m now clock = s ∨
      ∃ key, ∃ (event : ValidResult) (system : System), resultKeyOf m.generation = .ok key ∧
        key ∉ s.resultKeys ∧ event.1.jobId = m.generation.1 ∧
        s.system.step (.result event now clock) = some system ∧
        s.deliverResult repr m now clock =
          { s with
            system
            resultKeys := key :: s.resultKeys
            applied := s.applied ++ [m.generation] } := by
  have hmem : m.generation ∈ s.executions.map Prod.fst := by
    rw [← hs.reported]
    exact List.mem_map_of_mem hm
  obtain ⟨hid, hrow⟩ := hs.of_executed hmem
  obtain ⟨key, hkey, hdeliver⟩ : ∃ key, _ ∧ (_ ∧ s.deliverResult repr m now clock = s ∨ _) :=
    deliverResult_spec repr (hs.reports m hm) hid hrow
  rcases hdeliver with ⟨-, hsame⟩ | ⟨event, system, heventid, hstep, hdeliver⟩
  · exact Or.inl hsame
  by_cases hfree : key ∈ s.resultKeys
  case neg => exact Or.inr ⟨key, event, system, hkey, hfree, heventid, hstep, hdeliver⟩
  -- a claimed key would have been a duplicate
  left
  obtain ⟨event', hparse, hvalid, heventid', hattempt⟩ := parse_report repr (hs.reports m hm) hid
  have hkey' : workerResultKey event'.jobId event'.attempt = .ok key := by
    rw [heventid', hattempt]
    exact hkey
  have hclaim : claimedKeys.tryClaim s.resultKeys key defaultDedupeTtlSeconds = _ :=
    claimedKeys_tryClaim (strip_key_ne hkey') (by decide)
  rw [if_pos hfree] at hclaim
  simp only [State.deliverResult, ResultConsumerRunner.processMessage, hparse, hkey', hclaim]

theorem Traced.deliverResult (hs : Traced s) {m : Result} (hm : m ∈ s.results) (now clock : ℤ) :
    Traced (s.deliverResult repr m now clock) := by
  have hmem : m.generation ∈ s.executions.map Prod.fst := by
    rw [← hs.reported]
    exact List.mem_map_of_mem hm
  rcases hs.deliverResult_cases hm now clock with
    hsame | ⟨key, event, system, hkey, -, heventid, hstep, hdeliver⟩
  · rwa [hsame]
  rw [hdeliver]
  refine { hs with
    table := hs.table.step hstep
    posted := fun m hm => (hs.posted m hm).step hstep
    applied := ?_
    credited := hs.credited.claim hkey
    retries := hs.retries.step hstep ?_ }
  · intro g hg
    rcases List.mem_append.mp hg with hg | hg
    · exact hs.applied hg
    · rwa [List.mem_singleton.mp hg]
  · intro event' now' clock' h
    cases h
    have hpair : (event.1.jobId, 0) = m.generation :=
      Prod.ext heventid (hs.reports m hm).first.symm
    rw [hpair]
    exact hmem

/-- **One step** keeps the invariant, whatever it is. -/
theorem Traced.step (hs : Traced s) {a : Action} (hstep : s.step repr a = some t) : Traced t := by
  cases a with
  | tick runner E now =>
      obtain ⟨httl, rfl⟩ := step_tick_iff.mp hstep
      exact hs.tick httl
  | deliverDispatch i outcome =>
      obtain ⟨hstatus, m, hm, rfl⟩ := step_deliverDispatch_iff.mp hstep
      exact hs.deliverDispatch (List.mem_of_getElem? hm) hstatus
  | deliverResult i now clock =>
      obtain ⟨m, hm, rfl⟩ := Option.map_eq_some_iff.mp hstep
      exact hs.deliverResult (List.mem_of_getElem? hm) now clock
  | request q => exact hs.onTable (.request q) hstep
  | write i now => exact hs.onTable (.write i now) hstep
  | scan E stamp now limit => exact hs.onTable (.scan E stamp now limit) hstep
  | requeueDeadLettered jobId now => exact hs.onTable (.requeueDeadLettered jobId now) hstep

end Steps

theorem traced_of_run {repr : Json → String} {as : List Action} {s : State}
    (h : (machine repr).run .start as = some s) : Traced s :=
  Machine.run_invariant (fun _ _ _ hs hstep => hs.step hstep) traced_start h

/-- **Nothing is made up** in any run of the pipeline. -/
theorem nothing_made_up {repr : Json → String} {as : List Action} {s : State}
    (h : (machine repr).run .start as = some s) : Provenance s :=
  (traced_of_run h).provenance

end KernelQ.Pipeline
