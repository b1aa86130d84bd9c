import KernelQ.ControlPlane.SchedulerTick
import KernelQ.ControlPlane.System
import KernelQ.Foundation.ClaimedKeys
import Mathlib.Data.List.Infix

/-!
# Dispatch keys over whole runs

The control plane with its scheduler ticks: a tick claims rows and publishes
them, everything else is a step of `System`. The store's keys do not expire and
the producer does not fail. The state remembers every job that was claimed, with
the `retry_count` it was claimed with, and what the ticks returned.

A dispatch key is made of the job and its `retry_count`, so a claim has a key
of its own as long as nobody queues a row that was claimed with its current
`retry_count`. A retry scan and an operator's requeue are the only steps that
could (`KeepsFresh`).
-/

namespace KernelQ.ControlPlane

open KernelQ.Foundation

namespace Dispatching

structure State where
  system : System
  keys : List String
  log : List DispatchEvent
  claims : List JobRecord
  results : List (Except PyException SchedulerTickResult)

inductive Action
  | other (a : ControlPlane.Action)
  | tick (runner : SchedulerTickRunner) (E : Executor) (now : ℤ)

def claimedJobs (T : Jobs) (runner : SchedulerTickRunner) (E : Executor) (now : ℤ) :
    List JobRecord :=
  match JobRepository.claimSchedulableJobs T E now runner.maxJobsPerTick with
  | .ok (_, jobs) => jobs
  | .error _ => []

namespace State

def start (T : Jobs) : State := ⟨.start T, [], [], [], []⟩

def tick (s : State) (runner : SchedulerTickRunner) (E : Executor) (now : ℤ) : State :=
  let r := runner.runOnce claimedKeys dispatchTopic E now ⟨s.system.jobs, s.keys, s.log⟩
  { system := { s.system with jobs := r.1.jobs }
    keys := r.1.store
    log := r.1.producer
    claims := s.claims ++ claimedJobs s.system.jobs runner E now
    results := s.results ++ [r.2] }

/-- Ticks are the only claims, and the store takes their TTL. -/
def step (s : State) : Action → Option State
  | .other (.claim _ _ _) => none
  | .other a => (s.system.step a).map fun system => { s with system }
  | .tick runner E now =>
      if runner.dispatchDedupeTtlSeconds ≤ 0 then none else some (s.tick runner E now)

/-- The row's job was claimed with the row's `retry_count`. -/
def Claimed (s : State) (r : JobRow) : Prop :=
  ∃ job ∈ s.claims, job.jobId = r.jobId ∧ job.retryCount = r.retryCount

end State

def machine : Machine State Action := ⟨State.step⟩

/-- The job ids are not blank, and stripping them keeps them apart. -/
def CleanIds (T : Jobs) : Prop :=
  (∀ r ∈ T.rows, strip r.jobId ≠ "") ∧
    ∀ r ∈ T.rows, ∀ r' ∈ T.rows, strip r.jobId = strip r'.jobId → r.jobId = r'.jobId

instance (T : Jobs) : Decidable (CleanIds T) := inferInstanceAs (Decidable (_ ∧ _))

/-- Every claim is fresh, and is in Kafka. -/
structure Fresh (s : State) : Prop where
  increasing : s.claims.Pairwise fun job job' =>
    job.jobId = job'.jobId → job.retryCount < job'.retryCount
  published : s.log = s.claims.map .ofJob
  delivered : ∀ r ∈ s.system.jobs.rows, r.state = JobState.dispatched.value → s.Claimed r
  complete : ∀ result ∈ s.results, ∃ jobs, result = .ok (.published jobs)

/-- No scan and no requeue takes up a row that was claimed with its current
`retry_count`. -/
def KeepsFresh (s : State) : Action → Prop
  | .other (.scan E _ now limit) =>
      ∀ r ∈ JobRepository.dueRows s.system.jobs E now limit.toNat, ¬ s.Claimed r
  | .other (.requeueDeadLettered jobId _) =>
      ∀ r, s.system.jobs.find? jobId = some r → r.state = JobState.deadLettered.value →
        ¬ s.Claimed r
  | _ => True

/-! ## The invariant -/

structure Inv (s : State) : Prop extends Fresh s where
  present : ∀ job ∈ s.claims, ∃ r, s.system.jobs.find? job.jobId = some r ∧
    job.retryCount ≤ r.retryCount
  queued : ∀ r ∈ s.system.jobs.rows, r.state = JobState.queued.value → ¬ s.Claimed r
  keys : Backed (fun job => dispatchKey job.jobId (.int job.retryCount)) s.keys s.claims

theorem inv_start {T : Jobs} (hT : AllCreated T) : Inv (.start T) where
  increasing := List.Pairwise.nil
  published := rfl
  delivered r hr hstate := by
    rcases hT r hr with hc | hc
    · rw [hc.state_eq] at hstate
      exact absurd hstate (by simp)
    · rw [hc.state_eq] at hstate
      exact absurd hstate (by simp)
  complete result hresult := by cases hresult
  present job hjob := by cases hjob
  queued r _ _ := by
    rintro ⟨job, hjob, -⟩
    cases hjob
  keys := Backed.nil

variable {s t : State} {k : String} {r r' : JobRow}

/-- No step removes a row or lowers its `retry_count`. -/
theorem retryCount_le_of_rowChange {s : System} {a : ControlPlane.Action} {o : Option JobRow}
    (h : System.RowChange s a (some r) o) : ∃ r', o = some r' ∧ r.retryCount ≤ r'.retryCount := by
  cases h with
  | same => exact ⟨r, rfl, le_rfl⟩
  | written => exact ⟨_, rfl, le_rfl⟩
  | claimed => exact ⟨_, rfl, le_rfl⟩
  | applied hr =>
      rename_i event now clock
      refine ⟨_, rfl, ?_⟩
      unfold ResultStateHandler.resultUpdate
      split
      · simp only [setRetryPolicy]
        split <;> omega
      · split <;> exact le_rfl
  | scanned => exact ⟨_, rfl, le_rfl⟩
  | requeued => exact ⟨_, rfl, le_rfl⟩

/-- A queued row is older than all claims of its job. -/
theorem Inv.lt_of_queued (hs : Inv s) (hr : r ∈ s.system.jobs.rows)
    (hstate : r.state = JobState.queued.value) {job : JobRecord} (hjob : job ∈ s.claims)
    (hid : job.jobId = r.jobId) : job.retryCount < r.retryCount := by
  obtain ⟨r₀, hfind, hle⟩ := hs.present job hjob
  have hr₀ : r₀ = r := by
    rw [hid, KeyedTable.find?_of_mem hr] at hfind
    exact (Option.some.inj hfind).symm
  subst hr₀
  exact lt_of_le_of_ne hle fun heq => hs.queued r₀ hr hstate ⟨job, hjob, hid, heq⟩

/-! ## Everything but ticks -/

theorem step_other {a : ControlPlane.Action} (h : s.step (.other a) = some t) :
    (∀ E now limit, a ≠ .claim E now limit) ∧
      ∃ system, s.system.step a = some system ∧ t = { s with system } := by
  cases a <;> simp_all [State.step, eq_comm]

/-- What a step that is no tick does to a row that ends up queued or dispatched. -/
theorem row_of_other {a : ControlPlane.Action} (hkeeps : KeepsFresh s (.other a))
    (hstep : s.step (.other a) = some t) (hr' : r' ∈ t.system.jobs.rows)
    (hstate : r'.state = JobState.queued.value ∨ r'.state = JobState.dispatched.value) :
    (r' ∈ s.system.jobs.rows) ∨
      (r'.state = JobState.queued.value ∧ s.system.jobs.find? r'.jobId = none) ∨
      (r'.state = JobState.queued.value ∧ ∃ r ∈ s.system.jobs.rows, ¬ s.Claimed r ∧
        r.jobId = r'.jobId ∧ r.retryCount = r'.retryCount) := by
  obtain ⟨hclaim, system, hsystem, rfl⟩ := step_other hstep
  have hchange := System.step_rowChange hsystem r'.jobId
  rw [KeyedTable.find?_of_mem hr'] at hchange
  generalize ho : s.system.jobs.find? r'.jobId = o at hchange
  cases hchange with
  | same => exact Or.inl (KeyedTable.find?_eq_some_iff.mp ho).1
  | created hi hr => exact Or.inr (Or.inl ⟨hr.state_eq, rfl⟩)
  | written hi =>
      rename_i i now q r
      rcases hstate with h | h <;> cases q <;> simp [setState, Api.Transition.target] at h
  | claimed hr => exact absurd rfl (hclaim _ _ _)
  | applied hr =>
      rename_i event now clock r
      -- a result never queues or dispatches
      have hnot : ∀ v, ((ResultStateHandler.resultUpdate event.1 now clock).set r).state = v →
          v ∈ [JobState.retryScheduled.value, JobState.deadLettered.value,
            JobState.succeeded.value, JobState.failed.value] := by
        rintro v rfl
        unfold ResultStateHandler.resultUpdate
        split
        · simp only [setRetryPolicy]
          split <;> simp
        · split <;> simp [setState]
      rcases hstate with h | h <;> exact absurd (hnot _ h) (by decide)
  | scanned hr =>
      rename_i E stamp now limit r
      exact Or.inr (Or.inr ⟨rfl, r, (JobRepository.mem_dueRows hr).1, hkeeps r hr, rfl, rfl⟩)
  | requeued hr =>
      rename_i now r
      have hmem : r ∈ s.system.jobs.rows := (KeyedTable.find?_eq_some_iff.mp ho).1
      exact Or.inr (Or.inr
        ⟨rfl, r, hmem, hkeeps r (KeyedTable.find?_of_mem hmem) hr, rfl, rfl⟩)

theorem Inv.other {a : ControlPlane.Action} (hs : Inv s) (hkeeps : KeepsFresh s (.other a))
    (hstep : s.step (.other a) = some t) : Inv t := by
  have hrow := fun r' (hr' : r' ∈ t.system.jobs.rows) => row_of_other hkeeps hstep hr'
  obtain ⟨-, system, hsystem, rfl⟩ := step_other hstep
  refine ⟨⟨hs.increasing, hs.published, ?_, hs.complete⟩, ?_, ?_, hs.keys⟩
  · intro r' hr' hstate
    rcases hrow r' hr' (Or.inr hstate) with hr | ⟨hqueued, -⟩ | ⟨hqueued, -⟩
    · exact hs.delivered r' hr hstate
    · rw [hstate] at hqueued
      exact absurd hqueued (by simp)
    · rw [hstate] at hqueued
      exact absurd hqueued (by simp)
  · intro job hjob
    obtain ⟨r, hfind, hle⟩ := hs.present job hjob
    have hchange := System.step_rowChange hsystem job.jobId
    rw [hfind] at hchange
    obtain ⟨r', hfind', hle'⟩ := retryCount_le_of_rowChange hchange
    exact ⟨r', hfind', hle.trans hle'⟩
  · rintro r' hr' hstate ⟨job, hjob, hid, hcount⟩
    rcases hrow r' hr' (Or.inl hstate) with hr | ⟨-, hnone⟩ | ⟨-, r, -, hnot, hid', hcount'⟩
    · exact hs.queued r' hr hstate ⟨job, hjob, hid, hcount⟩
    · -- a job that was claimed has a row already, so nobody has just created it
      obtain ⟨r, hfind, -⟩ := hs.present job hjob
      rw [hid, hnone] at hfind
      cases hfind
    · exact hnot ⟨job, hjob, hid.trans hid'.symm, hcount.trans hcount'.symm⟩

/-! ## Ticks -/

/-- What a tick claims: queued rows, each once. -/
theorem claim_spec (T : Jobs) (runner : SchedulerTickRunner) (E : Executor) (now : ℤ) :
    ∃ T', JobRepository.claimSchedulableJobs T E now runner.maxJobsPerTick =
        .ok (T', claimedJobs T runner E now) ∧
      (∀ k, T'.find? k = (T.find? k).map fun r =>
        if r.jobId ∈ (claimedJobs T runner E now).map JobRecord.jobId
        then (setDispatched now).set r else r) ∧
      (claimedJobs T runner E now).Perm
        ((JobRepository.schedulableRows T E runner.maxJobsPerTick.toNat).map fun r =>
          rowToRecord ((setDispatched now).set r)) := by
  obtain ⟨T', jobs, hclaim⟩ : ∃ T' jobs,
      JobRepository.claimSchedulableJobs T E now runner.maxJobsPerTick =
        .ok (T', jobs) := by
    rw [JobRepository.claimSchedulableJobs, if_neg (not_le.mpr runner.maxJobs_pos)]
    exact ⟨_, _, rfl⟩
  have hjobs : claimedJobs T runner E now = jobs := by
    rw [claimedJobs, hclaim]
  obtain ⟨-, hfind, hperm⟩ := JobRepository.claimSchedulableJobs_eq_ok hclaim
  rw [hjobs]
  refine ⟨T', hclaim, ?_, hperm⟩
  intro k
  have hids := hperm.map JobRecord.jobId
  rw [List.map_map] at hids
  rw [hfind]
  congr 1
  funext r
  exact if_congr hids.mem_iff.symm rfl rfl

section Tick

variable {runner : SchedulerTickRunner} {E : Executor} {now : ℤ} {job : JobRecord}

theorem mem_claimedJobs_iff {T : Jobs} : job ∈ claimedJobs T runner E now ↔
    ∃ r ∈ JobRepository.schedulableRows T E runner.maxJobsPerTick.toNat,
      job = rowToRecord ((setDispatched now).set r) := by
  obtain ⟨T', -, -, hperm⟩ := claim_spec T runner E now
  rw [hperm.mem_iff, List.mem_map]
  exact ⟨fun ⟨r, hr, h⟩ => ⟨r, hr, h.symm⟩, fun ⟨r, hr, h⟩ => ⟨r, hr, h.symm⟩⟩

theorem mem_claimedJobs (h : job ∈ claimedJobs s.system.jobs runner E now) :
    ∃ r ∈ s.system.jobs.rows, r.state = JobState.queued.value ∧ job.jobId = r.jobId ∧
      job.retryCount = r.retryCount := by
  obtain ⟨r, hr, rfl⟩ := mem_claimedJobs_iff.mp h
  obtain ⟨hmem, hstate, -⟩ := JobRepository.mem_schedulableRows hr
  exact ⟨r, hmem, hstate, rfl, rfl⟩

theorem claimedJobs_ids_nodup (T : Jobs) (runner : SchedulerTickRunner) (E : Executor) (now : ℤ) :
    ((claimedJobs T runner E now).map JobRecord.jobId).Nodup := by
  obtain ⟨T', -, -, hperm⟩ := claim_spec T runner E now
  have hids := hperm.map JobRecord.jobId
  rw [List.map_map] at hids
  exact hids.nodup_iff.mpr (T.nodup_map_key JobRepository.schedulableRows_nodup
    fun r hr => (JobRepository.mem_schedulableRows hr).1)

/-- A claim is newer than all earlier claims of its job. -/
theorem Inv.lt_of_claimed (hs : Inv s) (hjob : job ∈ claimedJobs s.system.jobs runner E now)
    {old : JobRecord} (hold : old ∈ s.claims) (hid : old.jobId = job.jobId) :
    old.retryCount < job.retryCount := by
  obtain ⟨r, hr, hstate, hid', hcount⟩ := mem_claimedJobs hjob
  rw [hcount]
  exact hs.lt_of_queued hr hstate hold (hid.trans hid')

/-- The dispatch key of a job whose id is not blank. -/
def keyOf (job : JobRecord) : String :=
  "dispatch" ++ ":" ++ strip job.jobId ++ ":" ++ (PyInt.int job.retryCount).format

theorem dispatchKey_claimed (hclean : CleanIds s.system.jobs)
    (hjob : job ∈ claimedJobs s.system.jobs runner E now) :
    dispatchKey job.jobId (.int job.retryCount) = .ok (keyOf job) := by
  obtain ⟨r, hr, -, hid, -⟩ := mem_claimedJobs hjob
  exact attemptKey_of_not_blank "dispatch" (hid ▸ hclean.1 r hr) job.retryCount

/-- Among clean ids, a key is the key of one job and one `retry_count`. -/
theorem eq_of_key_eq (hclean : CleanIds s.system.jobs) {old : JobRecord} {key : String}
    (hold : dispatchKey old.jobId (.int old.retryCount) = .ok key)
    (hjob : dispatchKey job.jobId (.int job.retryCount) = .ok key)
    (hr : r ∈ s.system.jobs.rows) (hr' : r' ∈ s.system.jobs.rows) (hid : old.jobId = r.jobId)
    (hid' : job.jobId = r'.jobId) :
    old.jobId = job.jobId ∧ old.retryCount = job.retryCount := by
  obtain ⟨hstrip, hformat⟩ := attemptKey_inj hold hjob
  rw [hid, hid'] at hstrip ⊢
  exact ⟨hclean.2 r hr r' hr' hstrip, Int.ofNat_inj.mp (format_int_inj hformat)⟩

theorem keys_claimed_nodup (hclean : CleanIds s.system.jobs) :
    ((claimedJobs s.system.jobs runner E now).map keyOf).Nodup := by
  have hids := claimedJobs_ids_nodup s.system.jobs runner E now
  apply (hids.of_map _).map_on
  intro job hjob job' hjob' hkey
  obtain ⟨r, hr, -, hid, -⟩ := mem_claimedJobs hjob
  obtain ⟨r', hr', -, hid', -⟩ := mem_claimedJobs hjob'
  have hjobkey := dispatchKey_claimed hclean hjob
  rw [hkey] at hjobkey
  have heq := eq_of_key_eq hclean hjobkey (dispatchKey_claimed hclean hjob') hr hr' hid hid'
  exact List.inj_on_of_nodup_map hids hjob hjob' heq.1

theorem Inv.key_fresh (hs : Inv s) (hclean : CleanIds s.system.jobs)
    (hjob : job ∈ claimedJobs s.system.jobs runner E now) : keyOf job ∉ s.keys := by
  intro hkey
  obtain ⟨old, hold, holdkey⟩ := hs.keys _ hkey
  obtain ⟨r, hr, -, hid, -⟩ := mem_claimedJobs hjob
  obtain ⟨r₀, hfind, -⟩ := hs.present old hold
  obtain ⟨hr₀, hid₀⟩ := KeyedTable.find?_eq_some_iff.mp hfind
  obtain ⟨hids, hcounts⟩ := eq_of_key_eq hclean holdkey (dispatchKey_claimed hclean hjob) hr₀ hr
    hid₀.symm hid
  exact absurd hcounts (ne_of_lt (hs.lt_of_claimed hjob hold hids))

theorem Inv.tick_eq (hs : Inv s) (hclean : CleanIds s.system.jobs)
    (httl : 0 < runner.dispatchDedupeTtlSeconds) (E : Executor) (now : ℤ) :
    ∃ T', (∀ k, T'.find? k = (s.system.jobs.find? k).map fun r =>
        if r.jobId ∈ (claimedJobs s.system.jobs runner E now).map JobRecord.jobId
        then (setDispatched now).set r else r) ∧
      s.tick runner E now =
        { system := { s.system with jobs := T' }
          keys := ((claimedJobs s.system.jobs runner E now).map keyOf).reverse ++ s.keys
          log := s.log ++ (claimedJobs s.system.jobs runner E now).map .ofJob
          claims := s.claims ++ claimedJobs s.system.jobs runner E now
          results := s.results ++
            [.ok (.published (claimedJobs s.system.jobs runner E now))] } := by
  obtain ⟨T', hclaim, hfind, -⟩ := claim_spec s.system.jobs runner E now
  have hrun := SchedulerTickRunner.runOnce_of_fresh httl hclaim keyOf
    (fun job hjob => dispatchKey_claimed hclean hjob) (keys_claimed_nodup hclean)
    (fun job hjob => hs.key_fresh hclean hjob) s.log
  refine ⟨T', hfind, ?_⟩
  simp only [State.tick, hrun]

/-- A row after a tick was claimed by it, or is as it was. -/
theorem row_of_tick (hs : Inv s) (hclean : CleanIds s.system.jobs)
    (httl : 0 < runner.dispatchDedupeTtlSeconds)
    (hr' : r' ∈ (s.tick runner E now).system.jobs.rows) :
    (r'.state = JobState.dispatched.value ∧
        ∃ job ∈ claimedJobs s.system.jobs runner E now, job.jobId = r'.jobId ∧
          job.retryCount = r'.retryCount) ∨
      (r' ∈ s.system.jobs.rows ∧
        ∀ job ∈ claimedJobs s.system.jobs runner E now, job.jobId ≠ r'.jobId) := by
  obtain ⟨T', hfind, heq⟩ := hs.tick_eq hclean httl E now
  rw [heq] at hr'
  have h := hfind r'.jobId
  rw [KeyedTable.find?_of_mem hr'] at h
  obtain ⟨r, hr, h⟩ := Option.map_eq_some_iff.mp h.symm
  obtain ⟨hmem, hid⟩ := KeyedTable.find?_eq_some_iff.mp hr
  split at h
  · rename_i hclaimed
    subst h
    obtain ⟨job, hjob, hjid⟩ := List.mem_map.mp hclaimed
    obtain ⟨r₁, hr₁, -, hid₁, hcount₁⟩ := mem_claimedJobs hjob
    obtain rfl : r₁ = r := s.system.jobs.eq_of_key_eq hr₁ hmem (hid₁.symm.trans hjid)
    exact Or.inl ⟨rfl, job, hjob, hid₁, hcount₁⟩
  · rename_i hnot
    subst h
    exact Or.inr ⟨hmem, fun job hjob he => hnot (List.mem_map.mpr ⟨job, hjob, he⟩)⟩

theorem claims_tick : (s.tick runner E now).claims =
    s.claims ++ claimedJobs s.system.jobs runner E now := rfl

/-- **A tick keeps the invariant**: it claims what was never claimed, and
publishes it. -/
theorem Inv.tick (hs : Inv s) (hclean : CleanIds s.system.jobs)
    (httl : 0 < runner.dispatchDedupeTtlSeconds) : Inv (s.tick runner E now) := by
  have hrow := fun r' (hr' : r' ∈ (s.tick runner E now).system.jobs.rows) =>
    row_of_tick hs hclean httl hr'
  obtain ⟨T', hfind, heq⟩ := hs.tick_eq hclean httl E now
  -- the fields of `Fresh`, in order, and then those of `Inv`
  refine ⟨⟨?_, ?_, ?_, ?_⟩, ?_, ?_, ?_⟩
  · rw [claims_tick]
    refine List.pairwise_append.mpr ⟨hs.increasing, ?_, fun old hold job hjob =>
      hs.lt_of_claimed hjob hold⟩
    have hids := List.pairwise_map.mp (claimedJobs_ids_nodup s.system.jobs runner E now)
    exact hids.imp fun hne he => absurd he hne
  · rw [heq]
    simp only [hs.published, List.map_append]
  · intro r' hr' hstate
    rcases hrow r' hr' with ⟨-, job, hjob, hboth⟩ | ⟨hr, -⟩
    · exact ⟨job, List.mem_append_right _ hjob, hboth⟩
    · obtain ⟨job, hjob, hboth⟩ := hs.delivered r' hr hstate
      exact ⟨job, List.mem_append_left _ hjob, hboth⟩
  · rw [heq]
    intro result hresult
    rcases List.mem_append.mp hresult with h | h
    · exact hs.complete result h
    · exact ⟨_, List.mem_singleton.mp h⟩
  · have hpresent : ∀ job ∈ s.claims ++ claimedJobs s.system.jobs runner E now,
        ∃ r ∈ s.system.jobs.rows, job.jobId = r.jobId ∧ job.retryCount ≤ r.retryCount := by
      intro job hjob
      rcases List.mem_append.mp hjob with hjob | hjob
      · obtain ⟨r, hr, hle⟩ := hs.present job hjob
        obtain ⟨hmem, hid⟩ := KeyedTable.find?_eq_some_iff.mp hr
        exact ⟨r, hmem, hid.symm, hle⟩
      · obtain ⟨r, hr, -, hid, hcount⟩ := mem_claimedJobs hjob
        exact ⟨r, hr, hid, hcount.le⟩
    intro job hjob
    rw [claims_tick] at hjob
    obtain ⟨r, hr, hid, hle⟩ := hpresent job hjob
    have h := hfind job.jobId
    rw [hid, KeyedTable.find?_of_mem hr, Option.map_some] at h
    rw [heq, hid]
    refine ⟨_, h, ?_⟩
    split <;> exact hle
  · -- a row that is still queued was not selected
    rintro r' hr' hstate ⟨job, hjob, hid, hcount⟩
    rcases hrow r' hr' with ⟨hdispatched, -⟩ | ⟨hr, hnot⟩
    · rw [hstate] at hdispatched
      exact absurd hdispatched (by simp)
    · rcases List.mem_append.mp hjob with hjob | hjob
      · exact hs.queued r' hr hstate ⟨job, hjob, hid, hcount⟩
      · exact hnot job hjob hid
  · rw [heq]
    refine Backed.append ?_ (hs.keys.mono (List.subset_append_left _ _))
    intro key hkey
    obtain ⟨job, hjob, rfl⟩ := List.mem_map.mp (List.mem_reverse.mp hkey)
    exact ⟨job, List.mem_append_right _ hjob, dispatchKey_claimed hclean hjob⟩

end Tick

/-! ## The law -/

/-- Every claim so far is fresh, and so are those of a tick that comes next. -/
def StaysFresh (s : State) : Prop :=
  Fresh s ∧ ∀ runner E now t, s.step (.tick runner E now) = some t → Fresh t

theorem step_tick_iff {runner : SchedulerTickRunner} {E : Executor} {now : ℤ} :
    s.step (.tick runner E now) = some t ↔
      0 < runner.dispatchDedupeTtlSeconds ∧ s.tick runner E now = t := by
  simp only [State.step]
  split
  · rename_i h
    simp [not_lt.mpr h]
  · rename_i h
    simp [not_le.mp h]

theorem Inv.staysFresh (hs : Inv s) (hclean : CleanIds s.system.jobs) : StaysFresh s := by
  refine ⟨hs.toFresh, fun runner E now t ht => ?_⟩
  obtain ⟨httl, rfl⟩ := step_tick_iff.mp ht
  exact (hs.tick hclean httl).toFresh

theorem Inv.step {a : Action} (hs : Inv s) (hclean : CleanIds s.system.jobs)
    (hkeeps : KeepsFresh s a) (h : s.step a = some t) : Inv t := by
  cases a with
  | other a => exact hs.other hkeeps h
  | tick runner E now =>
      obtain ⟨httl, rfl⟩ := step_tick_iff.mp h
      exact hs.tick hclean httl

/-- A tick takes up every queued row, once it has room for all of them: also one
that was claimed before. -/
theorem not_staysFresh (hr : r ∈ s.system.jobs.rows) (hstate : r.state = JobState.queued.value)
    (hclaimed : s.Claimed r) : ¬ StaysFresh s := by
  rintro ⟨-, h⟩
  let runner : SchedulerTickRunner :=
    { maxJobsPerTick := s.system.jobs.rows.length + 1
      maxJobs_pos := by omega }
  have httl : 0 < defaultDispatchDedupeTtlSeconds := by decide
  have hfresh := h runner .quiet 0 _ (step_tick_iff.mpr ⟨httl, rfl⟩)
  have hsel : r ∈ JobRepository.schedulableRows s.system.jobs .quiet
      runner.maxJobsPerTick.toNat := by
    refine claimOrder.mem_selectTop_of_length_le ?_ (List.mem_filter.mpr ⟨hr, ?_⟩)
    · have hlen := List.length_filter_le
        (fun r => decide (r.state = JobState.queued.value) && !Executor.quiet.locked r.jobId)
        s.system.jobs.rows
      simp only [runner]
      omega
    · simp [hstate, Executor.quiet]
  obtain ⟨old, hold, hid, hcount⟩ := hclaimed
  have hnew : rowToRecord ((setDispatched 0).set r) ∈
      claimedJobs s.system.jobs runner .quiet 0 :=
    mem_claimedJobs_iff.mpr ⟨r, hsel, rfl⟩
  have hlt := (List.pairwise_append.mp hfresh.increasing).2.2 old hold _ hnew hid
  exact absurd hcount (ne_of_lt hlt)

/-- A step that takes up a row which was claimed with its current `retry_count`
leaves a state in which the next tick repeats a key. -/
theorem keepsFresh_of_staysFresh {a : Action} (h : ∀ t, s.step a = some t → StaysFresh t) :
    KeepsFresh s a := by
  cases a with
  | tick runner E now => trivial
  | other a =>
      cases a with
      | scan E stamp now limit =>
          -- a scan that selects a row has a limit, and so it does not raise
          intro r hr hclaimed
          have hmem := (JobRepository.mem_dueRows hr).1
          have hlimit : ¬ limit ≤ 0 := by
            intro hlimit
            have hnil : JobRepository.dueRows s.system.jobs E now limit.toNat = [] := by
              rw [Int.toNat_of_nonpos hlimit]
              rfl
            rw [hnil] at hr
            cases hr
          obtain ⟨T', ids, hscan⟩ : ∃ T' ids, JobRepository.requeueDueRetries s.system.jobs E stamp
              now limit = .ok (T', ids) := by
            rw [JobRepository.requeueDueRetries, if_neg hlimit]
            exact ⟨_, _, rfl⟩
          have hstep : s.step (.other (.scan E stamp now limit)) =
              some { s with system := { s.system with jobs := T' } } := by
            simp only [State.step, System.step, hscan, System.tableOf, Option.map_some]
          have hfind := (JobRepository.requeueDueRetries_eq_ok hscan).2 r.jobId
          rw [KeyedTable.find?_of_mem hmem, Option.map_some,
            if_pos (List.mem_map_of_mem hr)] at hfind
          exact absurd (h _ hstep)
            (not_staysFresh (KeyedTable.find?_eq_some_iff.mp hfind).1 rfl hclaimed)
      | requeueDeadLettered jobId now =>
          intro r hr hstate hclaimed
          have hfind : KeyedTable.find?
              (JobRepository.requeueDeadLetteredJob s.system.jobs now jobId).1 jobId =
                some ((setRequeued now).set r) := by
            show (JobRepository.updateRow s.system.jobs jobId _ _).1.find? jobId = _
            rw [JobRepository.find?_updateRow, if_pos rfl, hr, Option.map_some]
            simp [hstate]
          exact absurd (h _ rfl)
            (not_staysFresh (KeyedTable.find?_eq_some_iff.mp hfind).1 rfl hclaimed)
      | request q => trivial
      | write i now => trivial
      | claim E now limit => trivial
      | result event now clock => trivial

/-- **When every claim is fresh**: in a run from created jobs with clean ids,
every claim has a higher `retry_count` than the last one of its job, and is
published, up to every moment and in whatever tick comes next, exactly when no
scan and no requeue takes up a row that was claimed with its current
`retry_count`. -/
theorem claims_fresh_iff (T : Jobs) (hT : AllCreated T) (as : List Action)
    (hclean : ∀ pre post s, as = pre ++ post → machine.run (.start T) pre = some s →
      CleanIds s.system.jobs) :
    (∀ pre post s, as = pre ++ post → machine.run (.start T) pre = some s → StaysFresh s) ↔
      machine.EachStep KeepsFresh (.start T) as := by
  constructor
  · intro h
    apply Machine.eachStep_of_splits
    rintro pre a post s rfl hs
    apply keepsFresh_of_staysFresh
    intro t ht
    exact h (pre ++ [a]) post t (by simp) (machine.run_snoc_iff.mpr ⟨s, hs, ht⟩)
  · rintro h pre post s rfl hs
    have hinv : Inv s := by
      refine Machine.run_history
        (C := fun s a => CleanIds s.system.jobs ∧ KeepsFresh s a) (P := fun _ => Inv)
        (inv_start hT) (fun pre s a t _ hinv hC ht => hinv.step hC.1 hC.2 ht) ?_ hs
      apply Machine.eachStep_of_splits
      rintro pre' a post' t rfl ht
      refine ⟨hclean pre' (a :: post' ++ post) t (by simp) ht, ?_⟩
      exact h.left.at ht
    exact hinv.staysFresh (hclean pre post s rfl hs)

/-! ## A job replayed by hand -/

/-- One failure exhausts the job, an operator requeues it, and a tick claims it
once more. -/
def replayedByHand : List Action :=
  [.other (.request (.enqueue "job" { Scenario.body with maxRetries := some 0 })),
    .other (.write 0 10), .tick { maxJobs_pos := defaultMaxJobs_pos } .quiet 20,
    .other (.result Scenario.retryable 30 30), .other (.requeueDeadLettered "job" 40),
    .tick { maxJobs_pos := defaultMaxJobs_pos } .quiet 50]

theorem run_observed {β : Type} (f : State → β) (v : β) (s₀ : State) (as : List Action)
    (h : (machine.run s₀ as).map f = some v) :
    ∃ s, machine.run s₀ as = some s ∧ f s = v :=
  Option.map_eq_some_iff.mp h

theorem replayedByHand_clean : ∀ pre post s, replayedByHand = pre ++ post →
    machine.run (.start .empty) pre = some s → CleanIds s.system.jobs := by
  have hall : ∀ pre ∈ replayedByHand.inits,
      ∀ s ∈ machine.run (.start .empty) pre, CleanIds s.system.jobs := by decide +kernel
  intro pre post s hsplit hs
  exact hall pre ((List.mem_inits _ _).mpr ⟨post, hsplit.symm⟩) s hs

theorem claims_fresh_iff_replayed :
    (∀ pre post s, replayedByHand = pre ++ post → machine.run (.start .empty) pre = some s →
        StaysFresh s) ↔
      machine.EachStep KeepsFresh (.start .empty) replayedByHand :=
  claims_fresh_iff .empty (by rintro r hr; cases hr) replayedByHand replayedByHand_clean

/-- The second claim has the `retry_count` of the first: the tick counts it as a
duplicate, and the row stays `dispatched` without an event for it. -/
theorem replay_not_fresh : ∃ s, machine.run (.start .empty) replayedByHand = some s ∧
    (s.system.jobs.find? "job").map JobRow.state = some "dispatched" ∧
    s.claims.map (fun job => (job.jobId, job.retryCount)) = [("job", 0), ("job", 0)] ∧
    s.log.length = 1 ∧ ¬ Fresh s := by
  obtain ⟨s, hs, hobserved⟩ := run_observed
    (fun s => ((s.system.jobs.find? "job").map JobRow.state,
      s.claims.map (fun job => (job.jobId, job.retryCount)), s.log.length))
    (some "dispatched", [("job", 0), ("job", 0)], 1) (.start .empty) replayedByHand
    (by decide +kernel)
  simp only [Prod.mk.injEq] at hobserved
  obtain ⟨hstate, hclaims, hlog⟩ := hobserved
  refine ⟨s, hs, hstate, hclaims, hlog, fun hfresh => ?_⟩
  have hlen := congrArg List.length hfresh.published
  have hlen' := congrArg List.length hclaims
  simp only [List.length_map, List.length_cons, List.length_nil] at hlen hlen'
  omega

end Dispatching

end KernelQ.ControlPlane
