import KernelQ.Foundation.ClaimedKeys
import KernelQ.Pipeline.Machine
import KernelQ.Pipeline.ResultContract

/-!
# Duplicates in the pipeline

Each of the three stages skips a message when its key is claimed. A key is made
of the job's id and an attempt, but only the scheduler knows the `retry_count`:
the worker and the control plane read attempt 0 off every message. The stages
skip nothing but replays as long as the worker gets first attempts only
(`Aligned`).

The invariant has a part for each party. A part speaks of its own keys and of
the generations that were `published`, which no step takes back.
-/

namespace KernelQ.Pipeline

open KernelQ.Foundation KernelQ.ControlPlane
open Worker (ExecutionResult newWorkerResultEvent workerIdentity)

/-! ## The keys of a generation -/

def dispatchKeyOf (g : Generation) : Except PyException String := dispatchKey g.1 (.int g.2)

/-- The worker reads attempt 0 off every message. -/
def executionKeyOf (g : Generation) : Except Worker.KeyError String :=
  Worker.executionIdempotencyKey g.1 0

/-- So does the control plane. -/
def resultKeyOf (g : Generation) : Except PyException String := workerResultKey g.1 (.int 0)

variable {g g' : Generation} {key : String}

theorem Apart.symm (h : Apart g g') : Apart g' g :=
  fun hcount hstrip => (h hcount.symm hstrip.symm).symm

theorem eq_of_dispatchKey (hapart : Apart g g') (h : dispatchKeyOf g = .ok key)
    (h' : dispatchKeyOf g' = .ok key) : g = g' := by
  obtain ⟨hstrip, hformat⟩ := attemptKey_inj h h'
  have hcount : g.2 = g'.2 := Int.ofNat_inj.mp (format_int_inj hformat)
  exact Prod.ext (hapart hcount hstrip) hcount

theorem eq_of_resultKey (hapart : Apart g g') (hg : g.2 = 0) (hg' : g'.2 = 0)
    (h : resultKeyOf g = .ok key) (h' : resultKeyOf g' = .ok key) : g = g' := by
  have hcount : g.2 = g'.2 := hg.trans hg'.symm
  exact Prod.ext (hapart hcount (attemptKey_inj h h').1) hcount

/-- Python strips what Go trims. -/
theorem strip_eq_of_trimSpace_eq {a b : String} (h : Worker.trimSpace a = Worker.trimSpace b) :
    strip a = strip b := by
  rw [strip, strip, ← trim_trim_of_le isspace_of_isSpace a,
    ← trim_trim_of_le isspace_of_isSpace b]
  exact congrArg (trim isspace) h

theorem eq_of_executionKey (hapart : Apart g g') (hg : g.2 = 0) (hg' : g'.2 = 0)
    (h : executionKeyOf g = .ok key) (h' : executionKeyOf g' = .ok key) : g = g' := by
  obtain ⟨-, -, rfl⟩ := Worker.executionIdempotencyKey_eq_ok_iff.mp h
  obtain ⟨-, -, heq⟩ := Worker.executionIdempotencyKey_eq_ok_iff.mp h'
  have htrim : Worker.trimSpace g.1 = Worker.trimSpace g'.1 := by
    have hlist := congrArg String.toList heq
    simp only [String.toList_append, List.append_cancel_right_eq,
      List.append_cancel_left_eq] at hlist
    exact String.toList_inj.mp hlist
  have hcount : g.2 = g'.2 := hg.trans hg'.symm
  exact Prod.ext (hapart hcount (strip_eq_of_trimSpace_eq htrim)) hcount

theorem dispatchKeyOf_congr (hcount : g.2 = g'.2) (hstrip : strip g.1 = strip g'.1) :
    dispatchKeyOf g = dispatchKeyOf g' := by
  simp only [dispatchKeyOf, dispatchKey, attemptKey, validateJobId, hcount, hstrip]

/-! ## The jobs table -/

/-- No tenant is blank, and no request that has passed its check would make one. -/
structure TableInv (system : System) : Prop where
  tenants : ∀ r ∈ system.jobs.rows, strip r.tenantId ≠ ""
  requests : ∀ jobId body, Request.enqueue jobId body ∈ system.pending → strip body.tenantId ≠ ""

theorem tableInv_start : TableInv (.start .empty) where
  tenants r hr := by cases hr
  requests jobId body hq := by cases hq

section Table

variable {sys sys' : System} {a : ControlPlane.Action}

/-- No step changes the tenant or the payload of a row. -/
theorem frame_of_rowChange {r r' : JobRow} (h : System.RowChange sys a (some r) (some r')) :
    r'.tenantId = r.tenantId ∧ r'.payload = r.payload := by
  cases h with
  | applied hr =>
      unfold ResultStateHandler.resultUpdate
      split
      · exact ⟨rfl, rfl⟩
      · split <;> exact ⟨rfl, rfl⟩
  | _ => exact ⟨rfl, rfl⟩

/-- Only a result changes the `retry_count` of a row. -/
theorem retryCount_of_rowChange {r r' : JobRow}
    (h : System.RowChange sys a (some r) (some r')) : r'.retryCount = r.retryCount ∨
      ∃ event now clock, a = .result event now clock ∧ r.jobId = event.1.jobId := by
  cases h with
  | applied hr => exact Or.inr ⟨_, _, _, rfl, hr⟩
  | _ => exact Or.inl rfl

/-- Rows stay, with their payload. -/
theorem payload_of_step (h : sys.step a = some sys') {k : String} {r : JobRow}
    (hr : sys.jobs.find? k = some r) :
    ∃ r', sys'.jobs.find? k = some r' ∧ r'.payload = r.payload := by
  obtain ⟨r', hr'⟩ := System.find?_of_step h hr
  have hchange := System.step_rowChange h k
  rw [hr, hr'] at hchange
  exact ⟨r', hr', (frame_of_rowChange hchange).2⟩

theorem enqueue_pending (h : sys.step a = some sys') {jobId : String} {body : EnqueueJobRequest}
    (hq : Request.enqueue jobId body ∈ sys'.pending) :
    Request.enqueue jobId body ∈ sys.pending ∨ strip body.tenantId ≠ "" := by
  cases a with
  | request q =>
      simp only [System.step] at h
      split at h
      · rename_i hcheck
        cases h
        rcases List.mem_append.mp hq with hq | hq
        · exact Or.inl hq
        · cases List.mem_singleton.mp hq
          apply Or.inr
          intro hblank
          rw [Request.check, Api.enqueueCheck, if_pos hblank] at hcheck
          cases hcheck
      · cases h
        exact Or.inl hq
  | write i now =>
      simp only [System.step, Option.map_eq_some_iff] at h
      obtain ⟨q, -, rfl⟩ := h
      exact Or.inl (List.mem_of_mem_eraseIdx hq)
  | _ =>
      cases h
      exact Or.inl hq

/-- A row after a step: a request has created it, or it was there before. -/
theorem row_of_step (h : sys.step a = some sys') {r' : JobRow} (hr' : r' ∈ sys'.jobs.rows) :
    (r'.retryCount = 0 ∧
        ∃ jobId body, Request.enqueue jobId body ∈ sys.pending ∧ r'.tenantId = body.tenantId) ∨
      ∃ r ∈ sys.jobs.rows, r.jobId = r'.jobId ∧ System.RowChange sys a (some r) (some r') := by
  have hchange := System.step_rowChange h r'.jobId
  rw [KeyedTable.find?_of_mem hr'] at hchange
  generalize ho : sys.jobs.find? r'.jobId = o at hchange
  cases o with
  | none =>
      cases hchange with
      | created hi hr htenant =>
          exact Or.inl ⟨hr.retryCount, _, _, List.mem_of_getElem? hi, htenant⟩
  | some r =>
      obtain ⟨hr, hid⟩ := KeyedTable.find?_eq_some_iff.mp ho
      exact Or.inr ⟨r, hr, hid, hchange⟩

theorem TableInv.step (hs : TableInv sys) (h : sys.step a = some sys') : TableInv sys' where
  tenants r' hr' := by
    rcases row_of_step h hr' with ⟨-, jobId, body, hq, htenant⟩ | ⟨r, hr, -, hchange⟩
    · rw [htenant]
      exact hs.requests jobId body hq
    · rw [(frame_of_rowChange hchange).1]
      exact hs.tenants r hr
  requests jobId body hq := by
    rcases enqueue_pending h hq with hq | hne
    · exact hs.requests jobId body hq
    · exact hne

end Table

/-! ## The scheduler -/

/-- What the worker asks of the event of a job, beyond its payload. -/
structure Accepted (job : JobRecord) : Prop where
  jobId : strip job.jobId ≠ ""
  tenantId : strip job.tenantId ≠ ""
  state : job.state = JobState.dispatched.value
  priority : job.priority < 2 ^ 31

/-- The message is of such a job, and the job has a row. -/
structure Sent (T : Jobs) (m : Dispatch) : Prop where
  job : ∃ job, m.event = .ofJob job ∧ Accepted job
  row : ∃ r, T.find? m.event.jobId = some r ∧ r.payload = m.event.payload

theorem Sent.notBlank {T : Jobs} {m : Dispatch} (h : Sent T m) : strip m.event.jobId ≠ "" := by
  obtain ⟨job, hevent, hjob⟩ := h.job
  rw [hevent]
  exact hjob.jobId

/-- Messages of one job have one payload. -/
theorem Sent.payload_eq {T : Jobs} {m m' : Dispatch} (h : Sent T m) (h' : Sent T m')
    (hid : m.event.jobId = m'.event.jobId) : m.event.payload = m'.event.payload := by
  obtain ⟨r, hr, hpayload⟩ := h.row
  obtain ⟨r', hr', hpayload'⟩ := h'.row
  rw [hid, hr'] at hr
  cases hr
  exact hpayload.symm.trans hpayload'

def generations (dispatches : List Dispatch) : List Generation :=
  dispatches.map Dispatch.generation

structure SchedulerInv (T : Jobs) (dispatches : List Dispatch) (claimed : List String) :
    Prop where
  sent : ∀ m ∈ dispatches, Sent T m
  apart : ∀ g ∈ generations dispatches, ∀ g' ∈ generations dispatches, Apart g g'
  keys : Backed dispatchKeyOf claimed (generations dispatches)
  taken : Taken dispatchKeyOf claimed (generations dispatches)

theorem SchedulerInv.step {sys sys' : System} {a : ControlPlane.Action}
    {dispatches : List Dispatch} {keys : List String}
    (hs : SchedulerInv sys.jobs dispatches keys) (h : sys.step a = some sys') :
    SchedulerInv sys'.jobs dispatches keys where
  sent m hm := by
    obtain ⟨hjob, r, hr, hpayload⟩ := hs.sent m hm
    obtain ⟨r', hr', hpayload'⟩ := payload_of_step h hr
    exact ⟨hjob, r', hr', hpayload'.trans hpayload⟩
  apart := hs.apart
  keys := hs.keys
  taken := hs.taken

def messageOf (job : JobRecord) : Dispatch := ⟨.ofJob job, job.retryCount⟩

theorem retryCountOf_of_mem {jobs : List JobRecord} (hnodup : (jobs.map JobRecord.jobId).Nodup)
    {job : JobRecord} (hjob : job ∈ jobs) : retryCountOf jobs job.jobId = job.retryCount := by
  rw [retryCountOf]
  cases hfind : jobs.find? fun j => decide (j.jobId = job.jobId) with
  | none => exact absurd (List.find?_eq_none.mp hfind job hjob) (by simp)
  | some j =>
      have hid : j.jobId = job.jobId := by simpa using List.find?_some hfind
      obtain rfl : j = job :=
        List.inj_on_of_nodup_map hnodup (List.mem_of_find?_eq_some hfind) hjob hid
      rfl

section Tick

variable {s : State} {runner : SchedulerTickRunner} {E : Executor} {now : ℤ}

/-- The rows that a tick would claim. -/
abbrev rowsOf (s : State) (runner : SchedulerTickRunner) (E : Executor) : List JobRow :=
  JobRepository.schedulableRows s.system.jobs E runner.maxJobsPerTick.toNat

/-- The jobs that a tick claims. -/
abbrev jobsOf (s : State) (runner : SchedulerTickRunner) (E : Executor) (now : ℤ) :
    List JobRecord :=
  Dispatching.claimedJobs s.system.jobs runner E now

/-- **A tick**: it claims rows, and publishes jobs whose keys were free. -/
theorem tick_spec (httl : 0 < runner.dispatchDedupeTtlSeconds) :
    ∃ (system : System) (published : List JobRecord),
      s.system.step (.claim E now runner.maxJobsPerTick) = some system ∧
      SchedulerTickRunner.Published Dispatching.keyOf s.dispatchKeys (jobsOf s runner E now)
        published ∧
      s.tick runner E now =
        { s with
          system
          dispatchKeys := (published.map Dispatching.keyOf).reverse ++ s.dispatchKeys
          dispatches := s.dispatches ++ published.map messageOf } := by
  obtain ⟨T', hclaim, -, -⟩ := Dispatching.claim_spec s.system.jobs runner E now
  have hkey : ∀ (job : JobRecord) k, dispatchKey job.jobId (.int job.retryCount) = .ok k →
      k = Dispatching.keyOf job := fun job k h => (attemptKey_eq_ok_iff.mp h).2.2
  obtain ⟨published, hpublished, hrun⟩ :=
    SchedulerTickRunner.runOnce_spec httl hclaim Dispatching.keyOf hkey s.dispatchKeys []
  refine ⟨{ s.system with jobs := T' }, published, ?_, hpublished, ?_⟩
  · simp only [System.step, System.tableOf, hclaim]
  · have hmessages : (published.map DispatchEvent.ofJob).map (fun event => (⟨event, retryCountOf
        (jobsOf s runner E now) event.jobId⟩ : Dispatch)) = published.map messageOf := by
      rw [List.map_map]
      apply List.map_congr_left
      intro job hjob
      have hcount := retryCountOf_of_mem
        (Dispatching.claimedJobs_ids_nodup s.system.jobs runner E now)
        (hpublished.sublist.subset hjob)
      exact congrArg (Dispatch.mk (DispatchEvent.ofJob job)) hcount
    rw [State.tick, hrun]
    simp only [List.nil_append, hmessages]

theorem mem_generations_append_iff {dispatches : List Dispatch} {published : List JobRecord} :
    g ∈ generations (dispatches ++ published.map messageOf) ↔
      g ∈ generations dispatches ∨ ∃ job ∈ published, g = (job.jobId, job.retryCount) := by
  simp only [generations, List.map_append, List.map_map, List.mem_append, List.mem_map]
  apply or_congr_right
  constructor
  · rintro ⟨job, hjob, h⟩
    exact ⟨job, hjob, h.symm⟩
  · rintro ⟨job, hjob, h⟩
    exact ⟨job, hjob, h.symm⟩

/-- The messages of an aligned tick keep apart from all others. -/
theorem apart_claimed (haligned : Aligned s (.tick runner E now))
    (httl : 0 < runner.dispatchDedupeTtlSeconds) {job : JobRecord}
    (hjob : job ∈ jobsOf s runner E now)
    (hg : g ∈ generations s.dispatches ∨
      ∃ job' ∈ jobsOf s runner E now, g = (job'.jobId, job'.retryCount)) :
    Apart g (job.jobId, job.retryCount) := by
  obtain ⟨r, hr, rfl⟩ := Dispatching.mem_claimedJobs_iff.mp hjob
  obtain ⟨-, hold, hnew⟩ := haligned httl r hr
  rcases hg with hg | ⟨job', hjob', rfl⟩
  · obtain ⟨m, hm, rfl⟩ := List.mem_map.mp hg
    exact hold m hm
  · obtain ⟨r', hr', rfl⟩ := Dispatching.mem_claimedJobs_iff.mp hjob'
    exact hnew r' hr'

/-- The new messages of a tick are of rows the tick has claimed. -/
def FromRows (T : Jobs) (messages : List Dispatch) : Prop :=
  ∀ m ∈ messages, ∃ r ∈ T.rows, m.event.jobId = r.jobId ∧ m.retryCount = r.retryCount

theorem fromRows_published {published : List JobRecord}
    (hclaimed : ∀ job ∈ published, job ∈ jobsOf s runner E now) :
    FromRows s.system.jobs (published.map messageOf) := by
  intro m hm
  obtain ⟨job, hjob, rfl⟩ := List.mem_map.mp hm
  obtain ⟨r, hr, rfl⟩ := Dispatching.mem_claimedJobs_iff.mp (hclaimed job hjob)
  exact ⟨r, (JobRepository.mem_schedulableRows hr).1, rfl, rfl⟩

/-- **The step of the scheduler**: every claimed job is published, now or
before. -/
theorem SchedulerInv.tick (htable : TableInv s.system)
    (hs : SchedulerInv s.system.jobs s.dispatches s.dispatchKeys)
    (haligned : Aligned s (.tick runner E now)) (httl : 0 < runner.dispatchDedupeTtlSeconds) :
    ∃ system keys new, s.system.step (.claim E now runner.maxJobsPerTick) = some system ∧
      s.tick runner E now =
        { s with system, dispatchKeys := keys, dispatches := s.dispatches ++ new } ∧
      SchedulerInv system.jobs (s.dispatches ++ new) keys ∧ FromRows s.system.jobs new ∧
      ∀ job ∈ jobsOf s runner E now,
        (job.jobId, job.retryCount) ∈ generations (s.dispatches ++ new) := by
  obtain ⟨system, published, hstep, hpublished, htick⟩ := tick_spec (s := s) (E := E) httl
  have hclaimed : ∀ job ∈ published, job ∈ jobsOf s runner E now :=
    fun job hjob => hpublished.sublist.subset hjob
  have hkey : ∀ job ∈ jobsOf s runner E now,
      dispatchKeyOf (job.jobId, job.retryCount) = .ok (Dispatching.keyOf job) := by
    intro job hjob
    obtain ⟨r, hr, rfl⟩ := Dispatching.mem_claimedJobs_iff.mp hjob
    exact attemptKey_of_not_blank "dispatch" (haligned httl r hr).1 r.retryCount
  have hnewkeys : Backed dispatchKeyOf (published.map Dispatching.keyOf).reverse
      (generations (s.dispatches ++ published.map messageOf)) := by
    intro k hk
    obtain ⟨job, hjob, rfl⟩ := List.mem_map.mp (List.mem_reverse.mp hk)
    exact ⟨_, mem_generations_append_iff.mpr (Or.inr ⟨job, hjob, rfl⟩), hpublished.keyed job hjob⟩
  have hkeys := hnewkeys.append
    (hs.keys.mono fun g hg => mem_generations_append_iff.mpr (Or.inl hg))
  refine ⟨system, _, published.map messageOf, hstep, htick, ⟨?_, ?_, hkeys, ?_⟩,
    fromRows_published hclaimed, ?_⟩
  · intro m hm
    rcases List.mem_append.mp hm with hm | hm
    · exact (hs.step hstep).sent m hm
    · -- a new message is of a row that the tick has selected
      obtain ⟨job, hjob, rfl⟩ := List.mem_map.mp hm
      obtain ⟨r, hr, rfl⟩ := Dispatching.mem_claimedJobs_iff.mp (hclaimed job hjob)
      have hrow : r ∈ s.system.jobs.rows := (JobRepository.mem_schedulableRows hr).1
      have hafter : ∃ r', system.jobs.find? r.jobId = some r' ∧ r'.payload = r.payload :=
        payload_of_step hstep (KeyedTable.find?_of_mem hrow)
      exact ⟨⟨_, rfl, (haligned httl r hr).1, htable.tenants r hrow, rfl, r.priority_lt⟩, hafter⟩
  · intro g hg g' hg'
    rcases mem_generations_append_iff.mp hg' with hg' | ⟨job', hjob', rfl⟩
    · rcases mem_generations_append_iff.mp hg with hg | ⟨job, hjob, rfl⟩
      · exact hs.apart g hg g' hg'
      · exact (apart_claimed haligned httl (hclaimed job hjob) (Or.inl hg')).symm
    · apply apart_claimed haligned httl (hclaimed job' hjob')
      exact (mem_generations_append_iff.mp hg).imp_right
        fun ⟨job, hjob, h⟩ => ⟨job, hclaimed job hjob, h⟩
  · intro g hg
    rcases mem_generations_append_iff.mp hg with hg | ⟨job, hjob, rfl⟩
    · obtain ⟨k, hk, hgkey⟩ := hs.taken g hg
      exact ⟨k, List.mem_append_right _ hk, hgkey⟩
    · exact ⟨_, List.mem_append_left _ (List.mem_reverse.mpr (List.mem_map_of_mem hjob)),
        hpublished.keyed job hjob⟩
  · -- the key of a claimed job is taken now, and only its own generation has it
    intro job hjob
    apply hkeys.mem_of_claimed (hpublished.taken hkey job hjob)
    intro g hg hgkey
    refine eq_of_dispatchKey (apart_claimed haligned httl hjob ?_) hgkey (hkey job hjob)
    exact (mem_generations_append_iff.mp hg).imp_right
      fun ⟨job, hjob, h⟩ => ⟨job, hclaimed job hjob, h⟩

/-- After any tick, two generations that were published have two keys. -/
theorem SchedulerInv.key_injective {dispatches : List Dispatch} {T : Jobs} {keys : List String}
    {jobs published : List JobRecord} (hs : SchedulerInv T dispatches keys)
    (hpublished : SchedulerTickRunner.Published Dispatching.keyOf keys jobs published)
    (hg : g ∈ generations (dispatches ++ published.map messageOf))
    (hg' : g' ∈ generations (dispatches ++ published.map messageOf))
    (hkey : dispatchKeyOf g = .ok key) (hkey' : dispatchKeyOf g' = .ok key) : g = g' := by
  have hnew : ∀ job ∈ published, dispatchKeyOf (job.jobId, job.retryCount) = .ok key →
      Dispatching.keyOf job = key :=
    fun job hjob h => Except.ok.inj ((hpublished.keyed job hjob).symm.trans h)
  rcases mem_generations_append_iff.mp hg with hg | ⟨job, hjob, rfl⟩
  · rcases mem_generations_append_iff.mp hg' with hg' | ⟨job', hjob', rfl⟩
    · exact eq_of_dispatchKey (hs.apart g hg g' hg') hkey hkey'
    · have hold := hs.taken.mem hg hkey
      exact absurd (hnew job' hjob' hkey' ▸ hold) (hpublished.fresh job' hjob')
  · rcases mem_generations_append_iff.mp hg' with hg' | ⟨job', hjob', rfl⟩
    · have hold := hs.taken.mem hg' hkey'
      exact absurd (hnew job hjob hkey ▸ hold) (hpublished.fresh job hjob)
    · have heq := (hnew job hjob hkey).trans (hnew job' hjob' hkey').symm
      rw [List.inj_on_of_nodup_map hpublished.nodup hjob hjob' heq]

/-- **Only an aligned tick** has published every job that it claims. -/
theorem SchedulerInv.aligned_of_published
    (hs : SchedulerInv s.system.jobs s.dispatches s.dispatchKeys)
    (hall : 0 < runner.dispatchDedupeTtlSeconds → ∀ job ∈ jobsOf s runner E now,
      (job.jobId, job.retryCount) ∈ generations (s.tick runner E now).dispatches) :
    Aligned s (.tick runner E now) := by
  intro httl r hr
  obtain ⟨system, published, -, hpublished, htick⟩ := tick_spec (s := s) (E := E) httl
  have hmem : ∀ r ∈ rowsOf s runner E,
      (r.jobId, r.retryCount) ∈ generations (s.dispatches ++ published.map messageOf) := by
    intro r hr
    have h := hall httl _ (Dispatching.mem_claimedJobs_iff.mpr ⟨r, hr, rfl⟩)
    rw [htick] at h
    exact h
  obtain ⟨key, hkey⟩ : ∃ key, dispatchKeyOf (r.jobId, r.retryCount) = .ok key := by
    rcases mem_generations_append_iff.mp (hmem r hr) with hold | ⟨job, hjob, heq⟩
    · obtain ⟨key, -, hkey⟩ := hs.taken _ hold
      exact ⟨key, hkey⟩
    · rw [heq]
      exact ⟨_, hpublished.keyed job hjob⟩
  have hapart : ∀ g ∈ generations (s.dispatches ++ published.map messageOf),
      Apart g (r.jobId, r.retryCount) := by
    intro g hg hcount hstrip
    have hgkey := (dispatchKeyOf_congr hcount hstrip).trans hkey
    exact congrArg Prod.fst (hs.key_injective hpublished hg (hmem r hr) hgkey hkey)
  refine ⟨(attemptKey_eq_ok_iff.mp hkey).1, ?_, fun r' hr' => hapart _ (hmem r' hr')⟩
  intro m hm
  exact hapart _ (mem_generations_append_iff.mpr (Or.inl (List.mem_map_of_mem hm)))

end Tick

/-! ## The worker -/

/-- The result of a first attempt, as the worker has written it. -/
structure Report (m : Result) : Prop where
  first : m.generation.2 = 0
  written : ∃ result text, result.status ∈ Worker.resultStatuses ∧
    (newWorkerResultEvent m.generation.1 result workerIdentity).toJSON = .ok text ∧
      m.message.value = text.toUTF8

/-- The task was executed for the first attempt that the message is of. -/
structure FirstAttempt (m : Dispatch) (e : Generation × Worker.Task) : Prop where
  generation : e.1 = m.generation
  first : m.retryCount = 0
  readable : m.Readable
  jobId : e.2.jobId = m.event.jobId

structure WorkerInv (dispatches : List Dispatch) (claimed : List String)
    (executions : List (Generation × Worker.Task)) (results : List Result) : Prop where
  executed : ∀ e ∈ executions, ∃ m ∈ dispatches, FirstAttempt m e
  reported : ∀ m ∈ results, m.generation ∈ executions.map Prod.fst ∧ Report m
  keys : Backed executionKeyOf claimed (executions.map Prod.fst)
  taken : Taken executionKeyOf claimed (executions.map Prod.fst)

theorem WorkerInv.mono {dispatches dispatches' : List Dispatch} {claimed : List String}
    {executions : List (Generation × Worker.Task)} {results : List Result}
    (hs : WorkerInv dispatches claimed executions results) (hsub : dispatches ⊆ dispatches') :
    WorkerInv dispatches' claimed executions results where
  executed e he := by
    obtain ⟨m, hm, hfirst⟩ := hs.executed e he
    exact ⟨m, hsub hm, hfirst⟩
  reported := hs.reported
  keys := hs.keys
  taken := hs.taken

/-- Only first attempts that were published have been executed. -/
theorem WorkerInv.of_executed {dispatches : List Dispatch} {claimed : List String}
    {executions : List (Generation × Worker.Task)} {results : List Result}
    (hs : WorkerInv dispatches claimed executions results) (hg : g ∈ executions.map Prod.fst) :
    g ∈ generations dispatches ∧ g.2 = 0 := by
  obtain ⟨e, he, rfl⟩ := List.mem_map.mp hg
  obtain ⟨m, hm, hfirst⟩ := hs.executed e he
  rw [hfirst.generation]
  exact ⟨List.mem_map_of_mem hm, hfirst.first⟩

section Worker

variable {s : State} {m : Dispatch} {outcome : ExecutionResult} {T : Jobs}

theorem exists_entries {members : List (String × Json)}
    (h : ∀ member ∈ members, (entryOf member).isSome) :
    ∃ entries : StringMap, members.map entryOf = entries.map some := by
  refine ⟨members.filterMap entryOf, ?_⟩
  induction members with
  | nil => rfl
  | cons member members ih =>
      obtain ⟨e, he⟩ := Option.isSome_iff_exists.mp (h member List.mem_cons_self)
      rw [List.map_cons, he, List.filterMap_cons_some he, List.map_cons]
      exact congrArg _ (ih fun member' hmember' => h member' (List.mem_cons_of_mem _ hmember'))

/-- The worker reads a readable message, with attempt 0. -/
theorem parse_readable (hsent : Sent T m) (hread : m.Readable) :
    ∃ event, Worker.parseDispatchEvent m.value = .ok event ∧ event.Valid ∧
      event.jobId = m.event.jobId ∧ event.attempt = 0 := by
  obtain ⟨⟨job, hevent, hjob⟩, -⟩ := hsent
  obtain ⟨entries, hentries⟩ := exists_entries hread
  rw [Dispatch.value]
  rw [hevent] at hentries ⊢
  have hnodup : ((([] : StringMap).map Prod.fst) ++ job.payload.fields.map Prod.fst).Nodup :=
    job.payload.nodup
  have hstore : storeEntries "payload" [] job.payload.fields = .ok entries :=
    (storeEntries_eq_ok_iff hnodup).mpr ⟨entries, hentries, rfl⟩
  have hparse := parseDispatchEvent_ofJob job hjob.jobId hjob.tenantId hjob.state hjob.priority
  rw [hstore] at hparse
  exact ⟨received job entries, hparse, valid_received hjob.jobId hjob.tenantId hjob.state entries,
    rfl, rfl⟩

/-- It rejects any other. -/
theorem deliverDispatch_unreadable (hsent : Sent T m) (hread : ¬ m.Readable) :
    s.deliverDispatch m outcome = s := by
  obtain ⟨⟨job, hevent, hjob⟩, -⟩ := hsent
  have hnodup : ((([] : StringMap).map Prod.fst) ++ job.payload.fields.map Prod.fst).Nodup :=
    job.payload.nodup
  obtain ⟨err, hstore⟩ : ∃ err, storeEntries "payload" [] job.payload.fields = .error err := by
    cases hstore : storeEntries "payload" [] job.payload.fields with
    | error err => exact ⟨err, rfl⟩
    | ok entries =>
        obtain ⟨entries', hentries, -⟩ := (storeEntries_eq_ok_iff hnodup).mp hstore
        refine absurd ?_ hread
        intro member hmember
        rw [hevent] at hmember
        have hmem : entryOf member ∈ job.payload.fields.map entryOf := List.mem_map_of_mem hmember
        rw [hentries] at hmem
        obtain ⟨e, -, he⟩ := List.mem_map.mp hmem
        rw [← he]
        rfl
  have hparse := parseDispatchEvent_ofJob job hjob.jobId hjob.tenantId hjob.state hjob.priority
  rw [hstore, ← hevent] at hparse
  simp only [State.deliverDispatch, Worker.processMessage, Dispatch.value, hparse, List.map_nil,
    List.append_nil]

/-- **A dispatch delivery**: the key is claimed already, or the job is executed
and its result published. -/
theorem deliverDispatch_spec (hsent : Sent T m) (hread : m.Readable)
    (hstatus : outcome.status ∈ Worker.resultStatuses) :
    ∃ key, executionKeyOf m.generation = .ok key ∧
      (key ∈ s.executionKeys ∧ s.deliverDispatch m outcome = s ∨
        key ∉ s.executionKeys ∧ ∃ task text, task.jobId = m.event.jobId ∧
          (newWorkerResultEvent m.event.jobId outcome workerIdentity).toJSON = .ok text ∧
          s.deliverDispatch m outcome =
            { s with
              executionKeys := key :: s.executionKeys
              executions := s.executions ++ [(m.generation, task)]
              results := s.results ++ [⟨⟨m.event.jobId, text.toUTF8⟩, m.generation⟩] }) := by
  obtain ⟨event, hparse, hvalid, hid, hattempt⟩ := parse_readable hsent hread
  obtain ⟨key, hkey⟩ : ∃ key, Worker.executionIdempotencyKey event.jobId event.attempt = .ok key :=
    ⟨_, Worker.executionIdempotencyKey_eq_ok_iff.mpr ⟨hvalid.jobId, hvalid.attempt, rfl⟩⟩
  have hgeneration : executionKeyOf m.generation = .ok key := by
    rw [executionKeyOf, Dispatch.generation, ← hid, ← hattempt]
    exact hkey
  refine ⟨key, hgeneration, ?_⟩
  by_cases hmem : key ∈ s.executionKeys
  · refine Or.inl ⟨hmem, ?_⟩
    have hhandle : (Worker.consumerHandler outcome).handle ⟨⟨s.executionKeys, [], []⟩, 0, 0⟩ event =
        (⟨⟨s.executionKeys, [], []⟩, 1, 0⟩, .duplicateSkipped, none) :=
      Worker.handle_duplicate _ 0 0 hkey hmem
    simp only [State.deliverDispatch, Worker.processMessage, hparse, hhandle, List.map_nil,
      List.append_nil]
  · obtain ⟨text, htext, hhandle⟩ := Worker.handle_fresh ⟨s.executionKeys, [], []⟩ 0 0 hvalid
      hstatus hkey hmem
    rw [hid] at htext
    refine Or.inr ⟨hmem, Worker.DispatchEventHandler.taskOf event, text, hid, htext, ?_⟩
    simp only [State.deliverDispatch, Worker.processMessage, hparse, hhandle, List.map_nil,
      List.nil_append, List.map_cons, hid]

/-- **The step of the worker**: a first attempt has been executed afterwards. -/
theorem WorkerInv.deliverDispatch {dispatches : List Dispatch}
    (hs : WorkerInv dispatches s.executionKeys s.executions s.results)
    (hapart : ∀ g ∈ generations dispatches, ∀ g' ∈ generations dispatches, Apart g g')
    (hm : m ∈ dispatches) (hsent : Sent T m) (hfirst : m.retryCount = 0) (hread : m.Readable)
    (hstatus : outcome.status ∈ Worker.resultStatuses) :
    ∃ keys executions results,
      s.deliverDispatch m outcome = { s with executionKeys := keys, executions, results } ∧
      WorkerInv dispatches keys executions results ∧
      s.executions.map Prod.fst ⊆ executions.map Prod.fst ∧
      ∃ e ∈ executions, e.1 = m.generation ∧ e.2.jobId = m.event.jobId := by
  obtain ⟨key, hkey, hdeliver⟩ := deliverDispatch_spec (s := s) hsent hread hstatus
  rcases hdeliver with ⟨hmem, hdeliver⟩ | ⟨-, task, text, htask, htext, hdeliver⟩
  · -- whoever claimed the key was a first attempt too, so it was this one
    refine ⟨_, _, _, hdeliver, hs, List.Subset.refl _, ?_⟩
    have hdone : m.generation ∈ s.executions.map Prod.fst := by
      apply hs.keys.mem_of_claimed hmem
      intro g hg hgkey
      obtain ⟨hpublished, hzero⟩ := hs.of_executed hg
      have hpair := hapart g hpublished m.generation (List.mem_map_of_mem hm)
      exact eq_of_executionKey hpair hzero hfirst hgkey hkey
    obtain ⟨e, he, heq⟩ := List.mem_map.mp hdone
    obtain ⟨m', -, hattempt⟩ := hs.executed e he
    refine ⟨e, he, heq, ?_⟩
    have hid := congrArg Prod.fst (hattempt.generation.symm.trans heq)
    rw [hattempt.jobId]
    exact hid
  · have hgrows : s.executions.map Prod.fst ⊆
        (s.executions ++ [(m.generation, task)]).map Prod.fst :=
      List.map_subset _ (List.subset_append_left _ _)
    refine ⟨_, _, _, hdeliver, ⟨?_, ?_, ?_, ?_⟩, hgrows, (m.generation, task), by simp, rfl, htask⟩
    · intro e he
      rcases List.mem_append.mp he with he | he
      · exact hs.executed e he
      · rw [List.mem_singleton.mp he]
        exact ⟨m, hm, rfl, hfirst, hread, htask⟩
    · intro r hr
      rcases List.mem_append.mp hr with hr | hr
      · exact (hs.reported r hr).imp_left (hgrows ·)
      · rw [List.mem_singleton.mp hr]
        exact ⟨by simp, hfirst, outcome, text, hstatus, htext, rfl⟩
    · rw [List.map_append]
      exact hs.keys.claim hkey
    · rw [List.map_append]
      exact hs.taken.claim hkey

end Worker

/-! ## The result consumer -/

structure ResultInv (executed : List Generation) (claimed : List String)
    (done : List Generation) : Prop where
  applied : done ⊆ executed
  keys : Backed resultKeyOf claimed done

theorem ResultInv.mono {executed executed' : List Generation} {claimed : List String}
    {done : List Generation} (hs : ResultInv executed claimed done)
    (hsub : executed ⊆ executed') : ResultInv executed' claimed done :=
  ⟨fun _ hg => hsub (hs.applied hg), hs.keys⟩

section Results

variable {s : State} {m : Result} (repr : Json → String) {now clock : ℤ}

/-- The control plane reads the report, with attempt 0. -/
theorem parse_report (hreport : Report m) (hid : strip m.generation.1 ≠ "") :
    ∃ event, parseWorkerResultEvent repr m.message.value = .ok event ∧ event.Valid ∧
      event.jobId = m.generation.1 ∧ event.attempt = .int 0 := by
  obtain ⟨result, text, hstatus, htext, hvalue⟩ := hreport.written
  have hworker : strip workerIdentity ≠ "" := by decide +kernel
  have hvalid : (reported (newWorkerResultEvent m.generation.1 result workerIdentity)).Valid :=
    ⟨rfl, hid, mem_allowedStatuses hstatus, hworker, le_rfl⟩
  have hparse := parseWorkerResultEvent_toJSON repr htext
  rw [WorkerResultEvent.validate_eq_ok_iff.mpr hvalid, ← hvalue] at hparse
  exact ⟨_, hparse, hvalid, rfl, rfl⟩

/-- **A result delivery**: the key is claimed already, or the handler applies the
result. -/
theorem deliverResult_spec (hreport : Report m) (hid : strip m.generation.1 ≠ "")
    (hrow : ∃ r, s.system.jobs.find? m.generation.1 = some r) :
    ∃ key, resultKeyOf m.generation = .ok key ∧
      (key ∈ s.resultKeys ∧ s.deliverResult repr m now clock = s ∨
        ∃ (event : ValidResult) (system : System), event.1.jobId = m.generation.1 ∧
          s.system.step (.result event now clock) = some system ∧
          s.deliverResult repr m now clock =
            { s with
              system
              resultKeys := key :: s.resultKeys
              applied := s.applied ++ [m.generation] }) := by
  obtain ⟨event, hparse, hvalid, heventid, hattempt⟩ := parse_report repr hreport hid
  have httl : 0 < defaultDedupeTtlSeconds := by decide
  obtain ⟨key, hkey⟩ := hvalid.key
  have hgeneration : resultKeyOf m.generation = .ok key := by
    rw [resultKeyOf, ← heventid, ← hattempt]
    exact hkey
  have hclaim : claimedKeys.tryClaim s.resultKeys key defaultDedupeTtlSeconds = _ :=
    claimedKeys_tryClaim (strip_key_ne hkey) httl
  refine ⟨key, hgeneration, ?_⟩
  by_cases hmem : key ∈ s.resultKeys
  · refine Or.inl ⟨hmem, ?_⟩
    rw [if_pos hmem] at hclaim
    simp only [State.deliverResult, ResultConsumerRunner.processMessage, hparse, hkey, hclaim]
  · rw [if_neg hmem] at hclaim
    -- the row exists, so the handler does not raise
    have hok := (ResultStateHandler.handle_ok_iff s.system.jobs now clock hvalid).mpr
      (heventid ▸ hrow)
    refine Or.inr ⟨⟨event, hvalid⟩, _, heventid, rfl, ?_⟩
    rcases hhandle : ResultStateHandler.handle s.system.jobs now clock event with ⟨T', r⟩
    rw [hhandle] at hok
    obtain rfl : r = .ok () := hok
    simp only [State.deliverResult, ResultConsumerRunner.processMessage, hparse, hkey, hclaim,
      hhandle]

/-- **The step of the result consumer**: the result has been applied afterwards. -/
theorem ResultInv.deliverResult {executed : List Generation}
    (hs : ResultInv executed s.resultKeys s.applied)
    (hapart : ∀ g ∈ executed, g.2 = 0 ∧ Apart g m.generation) (hm : m.generation ∈ executed)
    (hreport : Report m) (hid : strip m.generation.1 ≠ "")
    (hrow : ∃ r, s.system.jobs.find? m.generation.1 = some r) :
    ∃ system keys applied,
      (s.system = system ∨ ∃ event : ValidResult, event.1.jobId = m.generation.1 ∧
        s.system.step (.result event now clock) = some system) ∧
      s.deliverResult repr m now clock = { s with system, resultKeys := keys, applied } ∧
      ResultInv executed keys applied ∧ m.generation ∈ applied := by
  obtain ⟨key, hkey, hdeliver⟩ := deliverResult_spec repr hreport hid hrow
  rcases hdeliver with ⟨hmem, hdeliver⟩ | ⟨event, system, heventid, hstep, hdeliver⟩
  · refine ⟨_, _, _, Or.inl rfl, hdeliver, hs, ?_⟩
    apply hs.keys.mem_of_claimed hmem
    intro g hg hgkey
    obtain ⟨hzero, hpair⟩ := hapart g (hs.applied hg)
    exact eq_of_resultKey hpair hzero hreport.first hgkey hkey
  · refine ⟨system, _, _, Or.inr ⟨event, heventid, hstep⟩, hdeliver,
      ⟨?_, hs.keys.claim hkey⟩, by simp⟩
    intro g hg
    rcases List.mem_append.mp hg with hg | hg
    · exact hs.applied hg
    · rwa [List.mem_singleton.mp hg]

end Results

/-! ## Retries -/

/-- What is tried again has been executed before. -/
structure RetryInv (T : Jobs) (dispatches : List Dispatch) (executed : List Generation) : Prop where
  rows : ∀ r ∈ T.rows, r.retryCount ≠ 0 → (r.jobId, 0) ∈ executed
  sent : ∀ m ∈ dispatches, m.retryCount ≠ 0 → (m.event.jobId, 0) ∈ executed

section Retries

variable {sys sys' : System} {dispatches : List Dispatch} {executed : List Generation}

theorem RetryInv.step (hs : RetryInv sys.jobs dispatches executed) {a : ControlPlane.Action}
    (h : sys.step a = some sys')
    (hresult : ∀ event now clock, a = .result event now clock → (event.1.jobId, 0) ∈ executed) :
    RetryInv sys'.jobs dispatches executed where
  rows r' hr' hcount := by
    rcases row_of_step h hr' with ⟨hzero, -⟩ | ⟨r, hr, hid, hchange⟩
    · exact absurd hzero hcount
    · rcases retryCount_of_rowChange hchange with hsame | ⟨event, now, clock, rfl, heventid⟩
      · rw [hsame] at hcount
        exact hid ▸ hs.rows r hr hcount
      · rw [← hid, heventid]
        exact hresult event now clock rfl
  sent := hs.sent

theorem RetryInv.mono {executed' : List Generation} {T : Jobs}
    (hs : RetryInv T dispatches executed) (hsub : executed ⊆ executed') :
    RetryInv T dispatches executed' where
  rows r hr hcount := hsub (hs.rows r hr hcount)
  sent m hm hcount := hsub (hs.sent m hm hcount)

theorem RetryInv.append {T : Jobs} {new : List Dispatch} (hs : RetryInv T dispatches executed)
    (hnew : FromRows T new) : RetryInv T (dispatches ++ new) executed where
  rows := hs.rows
  sent m hm hcount := by
    rcases List.mem_append.mp hm with hm | hm
    · exact hs.sent m hm hcount
    · obtain ⟨r, hr, hid, hrow⟩ := hnew m hm
      rw [hrow] at hcount
      exact hid ▸ hs.rows r hr hcount

end Retries

/-! ## The invariant -/

structure Inv (s : State) : Prop where
  table : TableInv s.system
  scheduler : SchedulerInv s.system.jobs s.dispatches s.dispatchKeys
  worker : WorkerInv s.dispatches s.executionKeys s.executions s.results
  results : ResultInv (s.executions.map Prod.fst) s.resultKeys s.applied
  retries : RetryInv s.system.jobs s.dispatches (s.executions.map Prod.fst)

theorem inv_start : Inv .start where
  table := tableInv_start
  scheduler :=
    { sent := fun m hm => by cases hm
      apart := fun g hg => by cases hg
      keys := Backed.nil
      taken := Taken.nil }
  worker :=
    { executed := fun e he => by cases he
      reported := fun m hm => by cases hm
      keys := Backed.nil
      taken := Taken.nil }
  results :=
    { applied := fun g hg => by cases hg
      keys := Backed.nil }
  retries :=
    { rows := fun r hr => by cases hr
      sent := fun m hm => by cases hm }

section Steps

variable {s t : State} {repr : Json → String}

/-- A step of the table that applies no result. -/
theorem Inv.system (hs : Inv s) {a : ControlPlane.Action} {system : System}
    (hstep : s.system.step a = some system)
    (hresult : ∀ event now clock, a ≠ .result event now clock) : Inv { s with system } where
  table := hs.table.step hstep
  scheduler := hs.scheduler.step hstep
  worker := hs.worker
  results := hs.results
  retries := hs.retries.step hstep fun event now clock h => absurd h (hresult event now clock)

theorem onTable_ne_result {a : Action} {b : ControlPlane.Action} (h : a.onTable = some b)
    (event : ValidResult) (now clock : ℤ) : b ≠ .result event now clock := by
  rintro rfl
  cases a <;> cases h

theorem Inv.onTable (hs : Inv s) (a : Action)
    (hstep : (a.onTable.bind s.system.step).map (fun system => { s with system }) = some t) :
    Inv t := by
  obtain ⟨system, hsystem, rfl⟩ := Option.map_eq_some_iff.mp hstep
  obtain ⟨b, hb, hbstep⟩ := Option.bind_eq_some_iff.mp hsystem
  exact hs.system hbstep (onTable_ne_result hb)

theorem Inv.tick (hs : Inv s) {runner : SchedulerTickRunner} {E : Executor} {now : ℤ}
    (haligned : Aligned s (.tick runner E now)) (httl : 0 < runner.dispatchDedupeTtlSeconds) :
    Inv (s.tick runner E now) ∧
      ∀ job ∈ jobsOf s runner E now,
        (job.jobId, job.retryCount) ∈ generations (s.tick runner E now).dispatches := by
  obtain ⟨system, keys, new, hsystem, htick, hscheduler, hnew, hall⟩ :=
    hs.scheduler.tick hs.table haligned httl
  have hretries := (hs.retries.append hnew).step hsystem fun event now clock h => by cases h
  rw [htick]
  exact ⟨⟨hs.table.step hsystem, hscheduler, hs.worker.mono (List.subset_append_left _ _),
    hs.results, hretries⟩, hall⟩

theorem Inv.deliverDispatch (hs : Inv s) {m : Dispatch} {outcome : ExecutionResult}
    (hm : m ∈ s.dispatches) (hfirst : m.retryCount = 0) (hread : m.Readable)
    (hstatus : outcome.status ∈ Worker.resultStatuses) :
    Inv (s.deliverDispatch m outcome) ∧
      ∃ e ∈ (s.deliverDispatch m outcome).executions,
        e.1 = m.generation ∧ e.2.jobId = m.event.jobId := by
  obtain ⟨keys, executions, results, hdeliver, hworker, hgrows, hexecuted⟩ :=
    hs.worker.deliverDispatch hs.scheduler.apart hm (hs.scheduler.sent m hm) hfirst hread hstatus
  rw [hdeliver]
  exact ⟨⟨hs.table, hs.scheduler, hworker, hs.results.mono hgrows, hs.retries.mono hgrows⟩,
    hexecuted⟩

/-- What has been executed was published: it has a row, and its id is not blank. -/
theorem Inv.of_executed (hs : Inv s) (hg : g ∈ s.executions.map Prod.fst) :
    strip g.1 ≠ "" ∧ ∃ r, s.system.jobs.find? g.1 = some r := by
  obtain ⟨m, hm, rfl⟩ := List.mem_map.mp (hs.worker.of_executed hg).1
  have hsent := hs.scheduler.sent m hm
  obtain ⟨r, hr, -⟩ := hsent.row
  exact ⟨hsent.notBlank, r, hr⟩

theorem Inv.deliverResult (hs : Inv s) {m : Result} (hm : m ∈ s.results) (now clock : ℤ) :
    Inv (s.deliverResult repr m now clock) ∧
      m.generation ∈ (s.deliverResult repr m now clock).applied := by
  obtain ⟨hexecuted, hreport⟩ := hs.worker.reported m hm
  obtain ⟨hid, hrow⟩ := hs.of_executed hexecuted
  have hapart : ∀ g ∈ s.executions.map Prod.fst, g.2 = 0 ∧ Apart g m.generation := by
    intro g hg
    obtain ⟨hpublished, hzero⟩ := hs.worker.of_executed hg
    exact ⟨hzero, hs.scheduler.apart g hpublished _ (hs.worker.of_executed hexecuted).1⟩
  obtain ⟨system, keys, applied, hsystem, hdeliver, hresults, happlied⟩ :=
    hs.results.deliverResult repr hapart hexecuted hreport hid hrow
  rw [hdeliver]
  refine ⟨?_, happlied⟩
  rcases hsystem with rfl | ⟨event, heventid, hstep⟩
  · exact ⟨hs.table, hs.scheduler, hs.worker, hresults, hs.retries⟩
  · have hretries := hs.retries.step hstep fun event' now' clock' h => by
      cases h
      have hpair : (event.1.jobId, 0) = m.generation := Prod.ext heventid hreport.first.symm
      rw [hpair]
      exact hexecuted
    exact ⟨hs.table.step hstep, hs.scheduler.step hstep, hs.worker, hresults, hretries⟩

theorem step_tick_iff {runner : SchedulerTickRunner} {E : Executor} {now : ℤ} :
    s.step repr (.tick runner E now) = some t ↔
      0 < runner.dispatchDedupeTtlSeconds ∧ s.tick runner E now = t := by
  rw [State.step]
  split
  · rename_i hle
    constructor
    · intro h
      cases h
    · rintro ⟨hlt, -⟩
      exact absurd hlt (not_lt.mpr hle)
  · rename_i hlt
    rw [Option.some.injEq]
    exact ⟨fun h => ⟨not_le.mp hlt, h⟩, fun h => h.2⟩

theorem step_deliverDispatch_iff {i : ℕ} {outcome : ExecutionResult} :
    s.step repr (.deliverDispatch i outcome) = some t ↔
      outcome.status ∈ Worker.resultStatuses ∧
        ∃ m, s.dispatches[i]? = some m ∧ s.deliverDispatch m outcome = t := by
  rw [State.step]
  split
  · rename_i hstatus
    rw [Option.map_eq_some_iff]
    exact ⟨fun h => ⟨hstatus, h⟩, fun h => h.2⟩
  · rename_i hstatus
    constructor
    · intro h
      cases h
    · rintro ⟨hmem, -⟩
      exact absurd hmem hstatus

/-- **One aligned step** keeps the invariant. -/
theorem Inv.step (hs : Inv s) {a : Action} (haligned : Aligned s a)
    (hstep : s.step repr a = some t) : Inv t := by
  cases a with
  | tick runner E now =>
      obtain ⟨httl, rfl⟩ := step_tick_iff.mp hstep
      exact (hs.tick haligned httl).1
  | deliverDispatch i outcome =>
      obtain ⟨hstatus, m, hm, rfl⟩ := step_deliverDispatch_iff.mp hstep
      obtain ⟨hfirst, hread⟩ := haligned hstatus m hm
      exact (hs.deliverDispatch (List.mem_of_getElem? hm) hfirst hread hstatus).1
  | deliverResult i now clock =>
      obtain ⟨m, hm, rfl⟩ := Option.map_eq_some_iff.mp hstep
      exact (hs.deliverResult (List.mem_of_getElem? hm) now clock).1
  | request q => exact hs.onTable (.request q) hstep
  | write i now => exact hs.onTable (.write i now) hstep
  | scan E stamp now limit => exact hs.onTable (.scan E stamp now limit) hstep
  | requeueDeadLettered jobId now => exact hs.onTable (.requeueDeadLettered jobId now) hstep

/-! ## Aligned steps are the faithful ones -/

theorem faithful_of_aligned (hs : Inv s) {a : Action} (haligned : Aligned s a) :
    Faithful repr s a := by
  intro t ht
  cases a with
  | tick runner E now =>
      obtain ⟨httl, rfl⟩ := step_tick_iff.mp ht
      exact (hs.tick haligned httl).2
  | deliverDispatch i outcome =>
      obtain ⟨hstatus, m, hm, rfl⟩ := step_deliverDispatch_iff.mp ht
      obtain ⟨hfirst, hread⟩ := haligned hstatus m hm
      intro m' hm'
      obtain rfl : m = m' := Option.some.inj (hm.symm.trans hm')
      exact (hs.deliverDispatch (List.mem_of_getElem? hm) hfirst hread hstatus).2
  | deliverResult i now clock =>
      obtain ⟨m, hm, rfl⟩ := Option.map_eq_some_iff.mp ht
      intro m' hm'
      obtain rfl : m = m' := Option.some.inj (hm.symm.trans hm')
      exact (hs.deliverResult (List.mem_of_getElem? hm) now clock).2
  | _ => trivial

/-- What has been executed for a message's generation was a readable first
attempt, and so is the message. -/
theorem Inv.first_of_executed (hs : Inv s) {m : Dispatch} (hm : m ∈ s.dispatches)
    {e : Generation × Worker.Task} (he : e ∈ s.executions) (heq : e.1 = m.generation) :
    m.retryCount = 0 ∧ m.Readable := by
  obtain ⟨m', hm', hattempt⟩ := hs.worker.executed e he
  have hsame : m'.generation = m.generation := hattempt.generation.symm.trans heq
  have hpayload := (hs.scheduler.sent m' hm').payload_eq (hs.scheduler.sent m hm)
    (congrArg Prod.fst hsame)
  have hcount : m'.retryCount = m.retryCount := congrArg Prod.snd hsame
  refine ⟨hcount.symm.trans hattempt.first, ?_⟩
  have hread := hattempt.readable
  rwa [Dispatch.Readable, hpayload] at hread

/-- **A delivery whose job has been executed afterwards** is of a readable first
attempt. -/
theorem Inv.aligned_of_executed (hs : Inv s) {m : Dispatch} {outcome : ExecutionResult}
    (hm : m ∈ s.dispatches) (hstatus : outcome.status ∈ Worker.resultStatuses)
    (hexecuted : ∃ e ∈ (s.deliverDispatch m outcome).executions, e.1 = m.generation) :
    m.retryCount = 0 ∧ m.Readable := by
  obtain ⟨e, he, heq⟩ := hexecuted
  have hsent := hs.scheduler.sent m hm
  by_cases hread : m.Readable
  · obtain ⟨key, hkey, hdeliver⟩ := deliverDispatch_spec (s := s) hsent hread hstatus
    rcases hdeliver with ⟨-, hdeliver⟩ | ⟨hfresh, -⟩
    · rw [hdeliver] at he
      exact hs.first_of_executed hm he heq
    · -- a later attempt has the key of the first one, which was executed before
      refine ⟨by_contra fun hcount => hfresh ?_, hread⟩
      exact hs.worker.taken.mem (hs.retries.sent m hm hcount) hkey
  · rw [deliverDispatch_unreadable hsent hread] at he
    exact hs.first_of_executed hm he heq

theorem aligned_of_faithful (hs : Inv s) {a : Action} (hfaithful : Faithful repr s a) :
    Aligned s a := by
  cases a with
  | tick runner E now =>
      apply hs.scheduler.aligned_of_published
      intro httl
      exact hfaithful _ (step_tick_iff.mpr ⟨httl, rfl⟩)
  | deliverDispatch i outcome =>
      intro hstatus m hm
      obtain ⟨e, he, heq, -⟩ :=
        hfaithful _ (step_deliverDispatch_iff.mpr ⟨hstatus, m, hm, rfl⟩) m hm
      exact hs.aligned_of_executed (List.mem_of_getElem? hm) hstatus ⟨e, he, heq⟩
  | _ => trivial

end Steps

/-- **Only replays are skipped** in a run exactly if its steps are all aligned. -/
theorem replays_only_iff (repr : Json → String) (as : List Action) :
    (machine repr).EachStep (Faithful repr) .start as ↔
      (machine repr).EachStep Aligned .start as := by
  apply Machine.eachStep_congr (P := Inv) _ _ inv_start
  · intro s a hs
    exact ⟨aligned_of_faithful hs, faithful_of_aligned hs⟩
  · intro s a t hs haligned hstep
    exact hs.step haligned hstep

/-! ## One job, delivered and retried -/

namespace OneJob

def retryable : ExecutionResult := ⟨Worker.executionRetryableFailure, "timeout"⟩

def dispatched : List Action :=
  [.request (.enqueue "job" Scenario.body), .write 0 10,
    .tick { maxJobs_pos := defaultMaxJobs_pos } .quiet 20]

/-- Both messages of the first attempt come twice. -/
def redelivered : List Action :=
  dispatched ++
    [.deliverDispatch 0 success, .deliverDispatch 0 success, .deliverResult 0 30 30,
      .deliverResult 0 40 40]

/-- The first attempt fails, and the job is dispatched again. -/
def retried : List Action :=
  dispatched ++
    [.deliverDispatch 0 retryable, .deliverResult 0 30 30, .scan .quiet 100 100 10,
      .tick { maxJobs_pos := defaultMaxJobs_pos } .quiet 110, .deliverDispatch 1 success]

end OneJob

example : (machine fun _ => "").EachStep Aligned .start OneJob.redelivered := by
  decide +kernel

/-- The worker takes the second attempt for a replay of the first. -/
theorem retry_taken_for_replay :
    ¬ (machine fun _ => "").EachStep (Faithful fun _ => "") .start OneJob.retried := by
  decide +kernel

end KernelQ.Pipeline
