import KernelQ.ControlPlane.TenantQueues

/-!
# The weighted round-robin scheduler

`scheduler_weighted_rr.py`. Within a tenant the queue is first in, first out
(`fifo`).
-/

namespace KernelQ.ControlPlane.SchedulerWeightedRr

open KernelQ.Foundation

structure Job where
  jobId : String
  tenantId : String
  createdAt : ℤ
  deriving DecidableEq

structure WeightedRoundRobinScheduler where
  queues : TenantQueues Job
  cycle : Rotation String

namespace WeightedRoundRobinScheduler

variable (repr : String → String)

/-- What the constructor raises, if anything. -/
def initError (weights : WeightMap) : Option PyException :=
  if weights.entries = [] then some (valueError "weights must not be empty")
  else weights.entries.findSome? (weightError repr)

variable {repr} in
theorem initError_eq_none_iff {weights : WeightMap} :
    initError repr weights = none ↔ weights.Valid := by
  rw [initError]
  split
  · rename_i hempty
    constructor
    · intro h
      cases h
    · intro h
      exact absurd hempty h.nonempty
  · rename_i hne
    simp only [List.findSome?_eq_none_iff, weightError_eq_none_iff]
    exact ⟨fun h => ⟨hne, h⟩, fun h => h.positive⟩

def init (weights : WeightMap) : Except PyException WeightedRoundRobinScheduler :=
  match h : initError repr weights with
  | some e => .error e
  | none => .ok
      { queues := .empty weights
        cycle := .start (buildWeightCycle weights)
          (WeightMap.buildWeightCycle_ne_nil (initError_eq_none_iff.mp h)) }

def enqueue (s : WeightedRoundRobinScheduler) (job : Job) :
    Except PyException WeightedRoundRobinScheduler :=
  if job.tenantId ∉ s.queues.tenants then
    .error (valueError (s.queues.unknownTenant repr job.tenantId))
  else
    .ok { s with queues := s.queues.set job.tenantId (s.queues.queue job.tenantId ++ [job]) }

/-- `q.popleft()`, if there is one. -/
def popleft (queues : TenantQueues Job) (t : String) : Option (Job × TenantQueues Job) :=
  match queues.queue t with
  | [] => none
  | job :: rest => some (job, queues.set t rest)

def dequeue (s : WeightedRoundRobinScheduler) : Option Job × WeightedRoundRobinScheduler :=
  if s.queues.size = 0 then (none, s)
  else
    match Rotation.walk (popleft s.queues) s.cycle.slots.length s.cycle with
    | (some (job, queues), cycle) => (some job, { queues, cycle })
    | (none, cycle) => (none, { s with cycle })

def peek (s : WeightedRoundRobinScheduler) : Option Job :=
  if s.queues.size = 0 then none
  else (Rotation.walk (fun t => (s.queues.queue t).head?) s.cycle.slots.length s.cycle).1

def call (s : WeightedRoundRobinScheduler) :
    SchedulerCall Job → WeightedRoundRobinScheduler × SchedulerReply Job Unit
  | .enqueue job =>
      match s.enqueue repr job with
      | .ok s' => (s', .enqueued ())
      | .error e => (s, .raised e)
  | .dequeue => (s.dequeue.2, .job s.dequeue.1)
  | .peek => (s, .job s.peek)
  | .size => (s, .size s.queues.size)

def service : Service WeightedRoundRobinScheduler (SchedulerCall Job) (SchedulerReply Job Unit) :=
  ⟨call repr⟩

/-! ## Specifications -/

def Inv (weights : WeightMap) (s : WeightedRoundRobinScheduler) : Prop :=
  s.queues.Inv Job.tenantId weights s.cycle

variable {repr} {weights : WeightMap} {s : WeightedRoundRobinScheduler}

theorem init_eq_ok (h : initError repr weights = none) :
    init repr weights = .ok ⟨.empty weights, .start (buildWeightCycle weights)
      (WeightMap.buildWeightCycle_ne_nil (initError_eq_none_iff.mp h))⟩ := by
  rw [init]
  split
  · rename_i e he
    rw [h] at he
    cases he
  · rfl

theorem eq_of_init (h : init repr weights = .ok s) :
    weights.Valid ∧ ∃ hcycle, s = ⟨.empty weights, .start (buildWeightCycle weights) hcycle⟩ := by
  rw [init] at h
  split at h
  · cases h
  · rename_i hnone
    cases h
    exact ⟨initError_eq_none_iff.mp hnone, _, rfl⟩

theorem inv_init (h : init repr weights = .ok s) : Inv weights s := by
  obtain ⟨hvalid, _, rfl⟩ := eq_of_init h
  exact TenantQueues.inv_start hvalid

/-- A job of a known tenant joins its queue. -/
theorem enqueue_eq_ok {job : Job} (h : job.tenantId ∈ s.queues.tenants) :
    s.enqueue repr job =
      .ok { s with queues := s.queues.set job.tenantId (s.queues.queue job.tenantId ++ [job]) } := by
  rw [enqueue, if_neg (not_not.mpr h)]

theorem popleft_isSome_iff {queues : TenantQueues Job} {t : String} :
    (popleft queues t).isSome ↔ queues.queue t ≠ [] := by
  rw [popleft]
  split
  · rename_i hnil
    simp [hnil]
  · rename_i hcons
    simp [hcons]

/-- **A dequeue and a peek**: nothing is queued, or both find the oldest job of
whoever has the turn. -/
theorem dequeue_spec (hs : Inv weights s) :
    s.queues.size = 0 ∧ s.dequeue = (none, s) ∧ s.peek = none ∨
      0 < s.queues.size ∧ ∃ t job rest cycle, s.queues.queue t = job :: rest ∧
        cycle.slots = s.cycle.slots ∧
        Turn (fun u => s.queues.queue u ≠ []) s.cycle.lap t cycle.lap ∧
        s.peek = some job ∧ s.dequeue = (some job, ⟨s.queues.set t rest, cycle⟩) := by
  rcases Nat.eq_zero_or_pos s.queues.size with hzero | hpos
  · exact Or.inl ⟨hzero, if_pos hzero, if_pos hzero⟩
  · refine Or.inr ⟨hpos, ?_⟩
    obtain ⟨u, hu, hne⟩ := hs.size_pos_iff.mp hpos
    obtain ⟨t, offer, cycle, hwalk, hoffer, hslots, hturn⟩ :=
      s.cycle.walk_spec ⟨u, hu, popleft_isSome_iff.mpr hne⟩
    have hheads : ∃ u ∈ s.cycle.slots, ((s.queues.queue u).head?).isSome :=
      ⟨u, hu, List.isSome_head?.mpr hne⟩
    obtain ⟨t', job', cycle', hlook, hhead, -, hturn'⟩ := s.cycle.walk_spec hheads
    simp only [popleft_isSome_iff] at hturn
    simp only [List.isSome_head?] at hturn'
    obtain ⟨rfl, -⟩ := hturn'.unique hturn
    rw [popleft] at hoffer
    split at hoffer
    · cases hoffer
    · rename_i job rest hqueue
      cases hoffer
      rw [hqueue, List.head?_cons, Option.some.injEq] at hhead
      subst hhead
      refine ⟨t', job, rest, cycle, hqueue, hslots, hturn, ?_, ?_⟩
      · rw [peek, if_neg hpos.ne', hlook]
      · rw [dequeue, if_neg hpos.ne', hwalk]

variable (repr) in
theorem inv_call (hs : Inv weights s) (c : SchedulerCall Job) : Inv weights (s.call repr c).1 := by
  cases c with
  | enqueue job =>
      rw [call, enqueue]
      by_cases h : job.tenantId ∈ s.queues.tenants
      · rw [if_neg (not_not.mpr h)]
        apply TenantQueues.Inv.set hs rfl
        intro j hj
        rcases List.mem_append.mp hj with hj | hj
        · exact hs.own _ j hj
        · rw [List.mem_singleton.mp hj]
      · rw [if_pos h]
        exact hs
  | dequeue =>
      rcases dequeue_spec hs with ⟨-, h, -⟩ |
        ⟨-, t, job, rest, cycle, hqueue, hslots, -, -, h⟩
      · rw [call, h]
        exact hs
      · rw [call, h]
        apply TenantQueues.Inv.set hs hslots
        intro j hj
        exact hs.own t j (hqueue ▸ List.mem_cons_of_mem job hj)
  | _ => exact hs

theorem step_call (hs : Inv weights s) (c : SchedulerCall Job) :
    TurnTaking.Step (s.queues.line s.cycle) (eventOf Job.tenantId (c, (s.call repr c).2))
      ((s.call repr c).1.queues.line (s.call repr c).1.cycle) := by
  cases c with
  | enqueue job =>
      rw [call, enqueue]
      by_cases h : job.tenantId ∈ s.queues.tenants
      · rw [if_neg (not_not.mpr h)]
        exact TenantQueues.step_grown s.queues job.tenantId job s.cycle
      · rw [if_pos h]
        exact TenantQueues.step_same s.queues s.cycle
  | dequeue =>
      rcases dequeue_spec hs with ⟨hzero, h, -⟩ |
        ⟨-, t, job, rest, cycle, hqueue, -, hturn, -, h⟩
      · rw [call, h]
        exact hs.step_idle hzero
      · have htenant : job.tenantId = t := hs.own t job (hqueue ▸ List.mem_cons_self)
        rw [call, h, eventOf, htenant]
        exact TenantQueues.step_served hturn (List.Perm.of_eq hqueue)
  | _ => exact TenantQueues.step_same s.queues s.cycle

variable (repr) in
/-- The scheduler takes turns. -/
def policy (weights : WeightMap) : TurnPolicy WeightedRoundRobinScheduler Job Unit where
  service := service repr
  tenantId := Job.tenantId
  Inv := Inv weights
  line s := s.queues.line s.cycle
  inv_call _ c hs := inv_call repr hs c
  step_call _ c hs := step_call hs c

end WeightedRoundRobinScheduler

end KernelQ.ControlPlane.SchedulerWeightedRr
