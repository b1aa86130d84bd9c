import KernelQ.ControlPlane.TenantQueues

/-!
# The composed scheduler

`scheduler_composed.py`, with the outcomes of `enqueue_result.py`: a bounded
number of jobs, tenants that take turns, and within a tenant the best job first.
-/

namespace KernelQ.ControlPlane.SchedulerComposed

open KernelQ.Foundation

inductive EnqueueStatus
  | accepted
  | rejectedFull
  | rejectedInvalid
  deriving DecidableEq

structure EnqueueResult where
  status : EnqueueStatus
  message : String

structure Job where
  jobId : String
  tenantId : String
  priority : ℤ
  createdAt : ℤ
  deriving DecidableEq

/-! ## The best job of a tenant -/

/-- The condition of the loop in `_best_job_index`. -/
def Job.Beats (candidate best : Job) : Prop :=
  candidate.priority > best.priority ∨
    (candidate.priority = best.priority ∧ candidate.createdAt < best.createdAt) ∨
      (candidate.priority = best.priority ∧ candidate.createdAt = best.createdAt ∧
        candidate.jobId < best.jobId)

instance (candidate best : Job) : Decidable (candidate.Beats best) :=
  inferInstanceAs (Decidable (_ ∨ (_ ∧ _) ∨ (_ ∧ _ ∧ _)))

/-- The loop, at index `i`. -/
def bestFrom (best : Job) (bestIndex : ℕ) : ℕ → List Job → ℕ
  | _, [] => bestIndex
  | i, candidate :: rest =>
      if candidate.Beats best then bestFrom candidate i (i + 1) rest
      else bestFrom best bestIndex (i + 1) rest

def indexError (message : String) : PyException := ⟨"IndexError", message⟩

def bestJobIndex : List Job → Except PyException ℕ
  | [] => .error (indexError "list index out of range")
  | job :: jobs => .ok (bestFrom job 0 1 jobs)

/-- `tenant_jobs.pop(index)`. -/
def pop (jobs : List Job) (index : ℕ) : Except PyException (Job × List Job) :=
  match jobs[index]? with
  | some job => .ok (job, jobs.eraseIdx index)
  | none => .error (indexError "pop index out of range")

theorem bestFrom_lt {best : Job} {bestIndex i : ℕ} {jobs : List Job}
    (h : bestIndex < i) : bestFrom best bestIndex i jobs < i + jobs.length := by
  induction jobs generalizing best bestIndex i with
  | nil => exact h
  | cons candidate rest ih =>
      rw [bestFrom, List.length_cons]
      split
      · have hlt : bestFrom candidate i (i + 1) rest < i + 1 + rest.length :=
          ih (Nat.lt_succ_self i)
        omega
      · have hlt : bestFrom best bestIndex (i + 1) rest < i + 1 + rest.length :=
          ih (Nat.lt_succ_of_lt h)
        omega

/-- A queue with jobs has a best one. -/
theorem bestJobIndex_spec {jobs : List Job} (h : jobs ≠ []) :
    ∃ index job, bestJobIndex jobs = .ok index ∧ jobs[index]? = some job ∧
      pop jobs index = .ok (job, jobs.eraseIdx index) ∧
      jobs.Perm (job :: jobs.eraseIdx index) := by
  obtain ⟨first, rest, rfl⟩ := List.exists_cons_of_ne_nil h
  have hlt : bestFrom first 0 1 rest < (first :: rest).length := by
    rw [List.length_cons, Nat.add_comm]
    exact bestFrom_lt Nat.zero_lt_one
  have hget := List.getElem?_eq_getElem hlt
  refine ⟨_, _, rfl, hget, ?_, (List.getElem_cons_eraseIdx_perm hlt).symm⟩
  rw [pop, hget]

/-! ## The scheduler -/

structure ComposedScheduler where
  capacity : ℤ
  queues : TenantQueues Job
  cycle : Rotation String

namespace ComposedScheduler

variable (repr : String → String)

/-- The checks of one entry of `weights`. -/
def entryError (e : String × ℤ) : Option PyException :=
  if strip e.1 = "" then some (valueError "tenant ids in weights must not be blank")
  else weightError repr e

/-- What the constructor raises, if anything. -/
def initError (capacity : ℤ) (weights : WeightMap) : Option PyException :=
  if capacity ≤ 0 then some (valueError "capacity must be a positive integer")
  else if weights.entries = [] then some (valueError "weights must not be empty")
  else weights.entries.findSome? (entryError repr)

variable {repr} in
theorem initError_eq_none_iff {capacity : ℤ} {weights : WeightMap} :
    initError repr capacity weights = none ↔
      0 < capacity ∧ weights.Valid ∧ ∀ t ∈ weights.tenants, strip t ≠ "" := by
  have hentry : ∀ e, entryError repr e = none ↔ strip e.1 ≠ "" ∧ 0 < e.2 := by
    intro e
    rw [entryError]
    split
    · rename_i hblank
      simp [hblank]
    · rename_i hname
      rw [weightError_eq_none_iff]
      exact (and_iff_right hname).symm
  rw [initError]
  split
  · rename_i hcapacity
    constructor
    · intro h
      cases h
    · intro h
      exact absurd h.1 (not_lt.mpr hcapacity)
  · rename_i hcapacity
    split
    · rename_i hempty
      constructor
      · intro h
        cases h
      · intro h
        exact absurd hempty h.2.1.nonempty
    · rename_i hne
      simp only [List.findSome?_eq_none_iff, hentry]
      constructor
      · intro h
        refine ⟨not_le.mp hcapacity, ⟨hne, fun e he => (h e he).2⟩, fun t ht => ?_⟩
        obtain ⟨e, he, rfl⟩ := List.mem_map.mp ht
        exact (h e he).1
      · rintro ⟨-, hvalid, hnames⟩ e he
        exact ⟨hnames e.1 (List.mem_map_of_mem he), hvalid.positive e he⟩

def init (capacity : ℤ) (weights : WeightMap) : Except PyException ComposedScheduler :=
  match h : initError repr capacity weights with
  | some e => .error e
  | none => .ok
      { capacity
        queues := .empty weights
        cycle := .start (buildWeightCycle weights)
          (WeightMap.buildWeightCycle_ne_nil (initError_eq_none_iff.mp h).2.1) }

def enqueue (s : ComposedScheduler) (job : Job) : EnqueueResult × ComposedScheduler :=
  if strip job.jobId = "" then (⟨.rejectedInvalid, "job_id must not be blank"⟩, s)
  else if strip job.tenantId = "" then (⟨.rejectedInvalid, "tenant_id must not be blank"⟩, s)
  else if job.tenantId ∉ s.queues.tenants then
    (⟨.rejectedInvalid, s.queues.unknownTenant repr job.tenantId⟩, s)
  else if s.capacity ≤ s.queues.size then (⟨.rejectedFull, "queue is full"⟩, s)
  else
    (⟨.accepted, "accepted"⟩,
      { s with queues := s.queues.set job.tenantId (s.queues.queue job.tenantId ++ [job]) })

/-- A tenant with waiting jobs is eligible. -/
def eligible (queues : TenantQueues Job) (t : String) : Option String :=
  if (queues.queue t).isEmpty then none else some t

def nextTenantAdvance (s : ComposedScheduler) : Option String × ComposedScheduler :=
  if s.queues.size = 0 then (none, s)
  else
    let r := Rotation.walk (eligible s.queues) s.cycle.slots.length s.cycle
    (r.1, { s with cycle := r.2 })

def nextTenantNoAdvance (s : ComposedScheduler) : Option String :=
  if s.queues.size = 0 then none
  else (Rotation.walk (eligible s.queues) s.cycle.slots.length s.cycle).1

def dequeue (s : ComposedScheduler) : Except PyException (Option Job) × ComposedScheduler :=
  match s.nextTenantAdvance with
  | (none, s) => (.ok none, s)
  | (some t, s) =>
      match bestJobIndex (s.queues.queue t) >>= pop (s.queues.queue t) with
      | .ok (job, rest) => (.ok (some job), { s with queues := s.queues.set t rest })
      | .error e => (.error e, s)

def peek (s : ComposedScheduler) : Except PyException (Option Job) :=
  match s.nextTenantNoAdvance with
  | none => .ok none
  | some t => do
      let index ← bestJobIndex (s.queues.queue t)
      match (s.queues.queue t)[index]? with
      | some job => return some job
      | none => throw (indexError "list index out of range")

/-- How many more jobs can be admitted. -/
def remainingCapacity (s : ComposedScheduler) : ℤ := s.capacity - s.queues.size

/-- The reply with a job, or with what was raised. -/
def replyOf {R : Type} : Except PyException (Option Job) → SchedulerReply Job R
  | .ok job => .job job
  | .error e => .raised e

def call (s : ComposedScheduler) :
    SchedulerCall Job → ComposedScheduler × SchedulerReply Job EnqueueResult
  | .enqueue job => ((s.enqueue repr job).2, .enqueued (s.enqueue repr job).1)
  | .dequeue => (s.dequeue.2, replyOf s.dequeue.1)
  | .peek => (s, replyOf s.peek)
  | .size => (s, .size s.queues.size)

def service : Service ComposedScheduler (SchedulerCall Job) (SchedulerReply Job EnqueueResult) :=
  ⟨call repr⟩

/-! ## Specifications -/

structure Inv (weights : WeightMap) (s : ComposedScheduler) : Prop where
  queues : s.queues.Inv Job.tenantId weights s.cycle
  bounded : s.queues.size ≤ s.capacity

variable {repr} {weights : WeightMap} {s : ComposedScheduler}

theorem init_eq_ok {capacity : ℤ} (h : initError repr capacity weights = none) :
    init repr capacity weights = .ok ⟨capacity, .empty weights, .start (buildWeightCycle weights)
      (WeightMap.buildWeightCycle_ne_nil (initError_eq_none_iff.mp h).2.1)⟩ := by
  rw [init]
  split
  · rename_i e he
    rw [h] at he
    cases he
  · rfl

theorem eq_of_init {capacity : ℤ} (h : init repr capacity weights = .ok s) :
    0 < capacity ∧ weights.Valid ∧ (∀ t ∈ weights.tenants, strip t ≠ "") ∧
      ∃ hcycle, s = ⟨capacity, .empty weights, .start (buildWeightCycle weights) hcycle⟩ := by
  rw [init] at h
  split at h
  · cases h
  · rename_i hnone
    obtain ⟨hcapacity, hvalid, hnames⟩ := initError_eq_none_iff.mp hnone
    cases h
    exact ⟨hcapacity, hvalid, hnames, _, rfl⟩

theorem inv_init {capacity : ℤ} (h : init repr capacity weights = .ok s) :
    Inv weights s ∧ s.capacity = capacity ∧ s.queues.jobs = [] := by
  obtain ⟨hcapacity, hvalid, -, _, rfl⟩ := eq_of_init h
  have hempty : (TenantQueues.empty weights : TenantQueues Job).jobs = [] :=
    List.flatMap_eq_nil_iff.mpr fun _ _ => rfl
  refine ⟨⟨TenantQueues.inv_start hvalid, ?_⟩, rfl, hempty⟩
  rw [TenantQueues.size_eq_length_jobs, hempty]
  exact hcapacity.le

/-- What is asked of a job before the capacity counts. -/
structure Admissible (s : ComposedScheduler) (job : Job) : Prop where
  jobId : strip job.jobId ≠ ""
  tenantId : strip job.tenantId ≠ ""
  known : job.tenantId ∈ s.queues.tenants

variable (repr) in
/-- **An enqueue** changes nothing, unless the job is accepted. -/
theorem enqueue_spec (s : ComposedScheduler) (job : Job) :
    (¬ s.Admissible job ∧ (s.enqueue repr job).1.status = .rejectedInvalid ∧
        (s.enqueue repr job).2 = s) ∨
      (s.Admissible job ∧ s.capacity ≤ s.queues.size ∧
        (s.enqueue repr job).1.status = .rejectedFull ∧ (s.enqueue repr job).2 = s) ∨
      (s.Admissible job ∧ s.queues.size < s.capacity ∧
        (s.enqueue repr job).1.status = .accepted ∧
        (s.enqueue repr job).2 =
          { s with queues :=
              s.queues.set job.tenantId (s.queues.queue job.tenantId ++ [job]) }) := by
  by_cases hjob : strip job.jobId = ""
  · refine Or.inl ⟨fun h => h.jobId hjob, ?_⟩
    rw [enqueue, if_pos hjob]
    exact ⟨rfl, rfl⟩
  by_cases htenant : strip job.tenantId = ""
  · refine Or.inl ⟨fun h => h.tenantId htenant, ?_⟩
    rw [enqueue, if_neg hjob, if_pos htenant]
    exact ⟨rfl, rfl⟩
  by_cases hknown : job.tenantId ∈ s.queues.tenants
  · have hadmissible : s.Admissible job := ⟨hjob, htenant, hknown⟩
    rw [enqueue, if_neg hjob, if_neg htenant, if_neg (not_not.mpr hknown)]
    by_cases hfull : s.capacity ≤ s.queues.size
    · refine Or.inr (Or.inl ⟨hadmissible, hfull, ?_⟩)
      rw [if_pos hfull]
      exact ⟨rfl, rfl⟩
    · refine Or.inr (Or.inr ⟨hadmissible, not_le.mp hfull, ?_⟩)
      rw [if_neg hfull]
      exact ⟨rfl, rfl⟩
  · refine Or.inl ⟨fun h => hknown h.known, ?_⟩
    rw [enqueue, if_neg hjob, if_neg htenant, if_pos hknown]
    exact ⟨rfl, rfl⟩

theorem eligible_isSome_iff {queues : TenantQueues Job} {t : String} :
    (eligible queues t).isSome ↔ queues.queue t ≠ [] := by
  rw [eligible]
  split
  · rename_i hempty
    simpa using hempty
  · rename_i hne
    simpa using hne

/-- **The trailing return of the lap** is not reached while jobs are queued. -/
theorem nextTenantAdvance_spec (hs : s.queues.Inv Job.tenantId weights s.cycle)
    (hpos : 0 < s.queues.size) :
    ∃ t cycle, s.nextTenantAdvance = (some t, { s with cycle }) ∧
      s.nextTenantNoAdvance = some t ∧ s.queues.queue t ≠ [] ∧ cycle.slots = s.cycle.slots ∧
      Turn (fun u => s.queues.queue u ≠ []) s.cycle.lap t cycle.lap := by
  obtain ⟨u, hu, hne⟩ := hs.size_pos_iff.mp hpos
  obtain ⟨t, offer, cycle, hwalk, hoffer, hslots, hturn⟩ :=
    s.cycle.walk_spec ⟨u, hu, eligible_isSome_iff.mpr hne⟩
  simp only [eligible_isSome_iff] at hturn
  have hqueue : s.queues.queue t ≠ [] :=
    eligible_isSome_iff.mp (Option.isSome_iff_exists.mpr ⟨offer, hoffer⟩)
  obtain rfl : offer = t := by
    rw [eligible] at hoffer
    split at hoffer
    · cases hoffer
    · exact (Option.some.inj hoffer).symm
  refine ⟨offer, cycle, ?_, ?_, hqueue, hslots, hturn⟩
  · rw [nextTenantAdvance, if_neg hpos.ne', hwalk]
  · rw [nextTenantNoAdvance, if_neg hpos.ne', hwalk]

/-- **A dequeue and a peek**: nothing is queued, or both find the best job of
whoever has the turn. -/
theorem dequeue_spec (hs : s.queues.Inv Job.tenantId weights s.cycle) :
    s.queues.size = 0 ∧ s.dequeue = (.ok none, s) ∧ s.peek = .ok none ∨
      0 < s.queues.size ∧ ∃ t index job cycle, bestJobIndex (s.queues.queue t) = .ok index ∧
        (s.queues.queue t).Perm (job :: (s.queues.queue t).eraseIdx index) ∧
        cycle.slots = s.cycle.slots ∧
        Turn (fun u => s.queues.queue u ≠ []) s.cycle.lap t cycle.lap ∧
        s.peek = .ok (some job) ∧
        s.dequeue = (.ok (some job), { s with
          queues := s.queues.set t ((s.queues.queue t).eraseIdx index), cycle }) := by
  rcases Nat.eq_zero_or_pos s.queues.size with hzero | hpos
  · refine Or.inl ⟨hzero, ?_, ?_⟩
    · rw [dequeue, nextTenantAdvance, if_pos hzero]
    · rw [peek, nextTenantNoAdvance, if_pos hzero]
  · obtain ⟨t, cycle, hadvance, hpeek, hqueue, hslots, hturn⟩ := nextTenantAdvance_spec hs hpos
    obtain ⟨index, job, hindex, hget, hpop, hperm⟩ := bestJobIndex_spec hqueue
    refine Or.inr ⟨hpos, t, index, job, cycle, hindex, hperm, hslots, hturn, ?_, ?_⟩
    · simp only [peek, hpeek, hindex, bind, Except.bind, hget]
      rfl
    · simp only [dequeue, hadvance, hindex, bind, Except.bind, hpop]

/-- The queues after an accepted job. -/
theorem Inv.accept (hs : Inv weights s) {job : Job} (hjob : s.Admissible job)
    (hroom : s.queues.size < s.capacity) :
    Inv weights ⟨s.capacity,
      s.queues.set job.tenantId (s.queues.queue job.tenantId ++ [job]), s.cycle⟩ where
  queues := by
    apply hs.queues.set rfl
    intro j hj
    rcases List.mem_append.mp hj with hj | hj
    · exact hs.queues.own _ j hj
    · rw [List.mem_singleton.mp hj]
  bounded := by
    have hperm := s.queues.jobs_append_perm hjob.known job
    simp only [TenantQueues.size_eq_length_jobs] at hroom ⊢
    rw [hperm.length_eq, List.length_append, List.length_singleton]
    push_cast
    omega

/-- The queues after a job has left. -/
theorem Inv.remove (hs : Inv weights s) {t : String} {job : Job} {rest : List Job}
    {cycle : Rotation String} (hqueue : (s.queues.queue t).Perm (job :: rest))
    (hslots : cycle.slots = s.cycle.slots) (ht : t ∈ s.queues.tenants) :
    Inv weights { s with queues := s.queues.set t rest, cycle } where
  queues := by
    apply hs.queues.set hslots
    intro j hj
    exact hs.queues.own t j (hqueue.mem_iff.mpr (List.mem_cons_of_mem job hj))
  bounded := by
    have hperm := s.queues.jobs_removed_perm ht hqueue
    have hbounded := hs.bounded
    simp only [TenantQueues.size_eq_length_jobs] at hbounded ⊢
    rw [hperm.length_eq, List.length_cons] at hbounded
    push_cast at hbounded
    omega

/-- Whoever has the turn is a tenant. -/
theorem mem_tenants_of_turn (hs : s.queues.Inv Job.tenantId weights s.cycle) {due : String → Prop}
    {t : String} {next : List String} (h : Turn due s.cycle.lap t next) :
    t ∈ s.queues.tenants := by
  obtain ⟨skipped, rest, hlap, -⟩ := h
  apply hs.mem_slots_iff.mp
  apply s.cycle.lap_perm.mem_iff.mp
  simp [hlap]

variable (repr) in
theorem inv_call (hs : Inv weights s) (c : SchedulerCall Job) : Inv weights (s.call repr c).1 := by
  cases c with
  | enqueue job =>
      rw [call]
      rcases enqueue_spec repr s job with ⟨-, -, h⟩ | ⟨-, -, -, h⟩ | ⟨hjob, hroom, -, h⟩
      · rw [h]
        exact hs
      · rw [h]
        exact hs
      · rw [h]
        exact hs.accept hjob hroom
  | dequeue =>
      rcases dequeue_spec hs.queues with ⟨-, h, -⟩ |
        ⟨-, t, index, job, cycle, -, hqueue, hslots, hturn, -, h⟩
      · rw [call, h]
        exact hs
      · rw [call, h]
        exact hs.remove hqueue hslots (mem_tenants_of_turn hs.queues hturn)
  | _ => exact hs

theorem capacity_call (hs : Inv weights s) (c : SchedulerCall Job) :
    (s.call repr c).1.capacity = s.capacity := by
  cases c with
  | enqueue job =>
      rw [call]
      rcases enqueue_spec repr s job with ⟨-, -, h⟩ | ⟨-, -, -, h⟩ | ⟨-, -, -, h⟩ <;>
        rw [h]
  | dequeue =>
      rcases dequeue_spec hs.queues with ⟨-, h, -⟩ | ⟨-, t, index, job, cycle, -, -, -, -, -, h⟩ <;>
        rw [call, h]
  | _ => rfl

theorem step_call (hs : Inv weights s) (c : SchedulerCall Job) :
    TurnTaking.Step (s.queues.line s.cycle) (eventOf Job.tenantId (c, (s.call repr c).2))
      ((s.call repr c).1.queues.line (s.call repr c).1.cycle) := by
  cases c with
  | enqueue job =>
      rw [call]
      rcases enqueue_spec repr s job with ⟨-, -, h⟩ | ⟨-, -, -, h⟩ | ⟨-, -, -, h⟩
      · rw [h]
        exact TenantQueues.step_same s.queues s.cycle
      · rw [h]
        exact TenantQueues.step_same s.queues s.cycle
      · rw [h]
        exact TenantQueues.step_grown s.queues job.tenantId job s.cycle
  | dequeue =>
      rcases dequeue_spec hs.queues with ⟨hzero, h, -⟩ |
        ⟨-, t, index, job, cycle, -, hqueue, -, hturn, -, h⟩
      · rw [call, h]
        exact hs.queues.step_idle hzero
      · have htenant : job.tenantId = t :=
          hs.queues.own t job (hqueue.mem_iff.mpr List.mem_cons_self)
        rw [call, h, replyOf, eventOf, htenant]
        exact TenantQueues.step_served hturn hqueue
  | peek =>
      rw [call]
      cases s.peek with
      | ok job => exact TenantQueues.step_same s.queues s.cycle
      | error e => exact TenantQueues.step_same s.queues s.cycle
  | size => exact TenantQueues.step_same s.queues s.cycle

variable (repr) in
/-- The scheduler takes turns. -/
def policy (weights : WeightMap) : TurnPolicy ComposedScheduler Job EnqueueResult where
  service := service repr
  tenantId := Job.tenantId
  Inv := Inv weights
  line s := s.queues.line s.cycle
  inv_call _ c hs := inv_call repr hs c
  step_call _ c hs := step_call hs c

end ComposedScheduler

end KernelQ.ControlPlane.SchedulerComposed
