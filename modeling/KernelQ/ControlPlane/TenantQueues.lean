import KernelQ.ControlPlane.WeightCycle
import KernelQ.Foundation.Service
import KernelQ.Foundation.TurnTaking

/-!
# Queues of tenants that take turns

The two weighted schedulers keep a queue for each tenant and a position in the
weight cycle. They differ in which job of a tenant goes first, and in which jobs
they admit. A `TurnPolicy` is what both are: a service whose calls are steps of a
line that takes turns.
-/

namespace KernelQ.ControlPlane

open KernelQ.Foundation

/-- A dict with a queue for each tenant. -/
structure TenantQueues (J : Type) where
  tenants : List String
  nodup : tenants.Nodup
  queue : String → List J

namespace TenantQueues

variable {J : Type}

def empty (weights : WeightMap) : TenantQueues J := ⟨weights.tenants, weights.nodup, fun _ => []⟩

def set (q : TenantQueues J) (t : String) (jobs : List J) : TenantQueues J :=
  { q with queue := Function.update q.queue t jobs }

/-- `sum(len(q) for q in self._queues.values())`. -/
def size (q : TenantQueues J) : ℕ := (q.tenants.map fun t => (q.queue t).length).sum

/-- `{tenant_id: len(q) for tenant_id, q in self._queues.items()}`. -/
def tenantQueueSizes (q : TenantQueues J) : List (String × ℕ) :=
  q.tenants.map fun t => (t, (q.queue t).length)

/-- Everything queued. -/
def jobs (q : TenantQueues J) : List J := q.tenants.flatMap q.queue

@[simp] theorem tenants_set (q : TenantQueues J) (t : String) (jobs : List J) :
    (q.set t jobs).tenants = q.tenants := rfl

@[simp] theorem queue_set_self (q : TenantQueues J) (t : String) (jobs : List J) :
    (q.set t jobs).queue t = jobs := by
  simp [set]

theorem queue_set_of_ne (q : TenantQueues J) {t u : String} (h : u ≠ t) (jobs : List J) :
    (q.set t jobs).queue u = q.queue u := by
  simp [set, h]

theorem size_eq_length_jobs (q : TenantQueues J) : q.size = q.jobs.length := by
  rw [size, jobs, List.length_flatMap]

theorem size_pos_iff (q : TenantQueues J) : 0 < q.size ↔ ∃ t ∈ q.tenants, q.queue t ≠ [] := by
  rw [size_eq_length_jobs, List.length_pos_iff_exists_mem]
  simp only [jobs, List.mem_flatMap]
  constructor
  · rintro ⟨job, t, ht, hjob⟩
    exact ⟨t, ht, List.ne_nil_of_mem hjob⟩
  · rintro ⟨t, ht, hne⟩
    obtain ⟨job, hjob⟩ := List.exists_mem_of_ne_nil _ hne
    exact ⟨job, t, ht, hjob⟩

/-- **Only the queue that is set changes**: the new queue in exchange for the old
one. -/
theorem jobs_set_perm (q : TenantQueues J) {t : String} (ht : t ∈ q.tenants) (new : List J) :
    ((q.set t new).jobs ++ q.queue t).Perm (q.jobs ++ new) := by
  obtain ⟨as, bs, hsplit⟩ := List.append_of_mem ht
  have hnodup := q.nodup
  rw [hsplit, List.nodup_middle, List.nodup_cons, List.mem_append, not_or] at hnodup
  obtain ⟨⟨has, hbs⟩, -⟩ := hnodup
  have hothers : ∀ l : List String, t ∉ l → l.flatMap (q.set t new).queue = l.flatMap q.queue := by
    intro l hl
    apply List.flatMap_congr
    intro u hu
    apply q.queue_set_of_ne
    rintro rfl
    exact hl hu
  simp only [jobs, tenants_set, hsplit, List.flatMap_append, List.flatMap_cons, hothers as has,
    hothers bs hbs, queue_set_self]
  rw [← Multiset.coe_eq_coe]
  simp only [← Multiset.coe_add]
  ac_rfl

/-- A job joins its queue. -/
theorem jobs_append_perm (q : TenantQueues J) {t : String} (ht : t ∈ q.tenants) (job : J) :
    (q.set t (q.queue t ++ [job])).jobs.Perm (q.jobs ++ [job]) := by
  have h := q.jobs_set_perm ht (q.queue t ++ [job])
  rw [← Multiset.coe_eq_coe] at h ⊢
  simp only [← Multiset.coe_add] at h ⊢
  rw [add_comm (q.queue t : Multiset J), ← add_assoc] at h
  exact add_right_cancel h

/-- A job leaves its queue. -/
theorem jobs_removed_perm (q : TenantQueues J) {t : String} (ht : t ∈ q.tenants) {job : J}
    {rest : List J} (hqueue : (q.queue t).Perm (job :: rest)) :
    q.jobs.Perm (job :: (q.set t rest).jobs) := by
  have h := q.jobs_set_perm ht rest
  rw [← Multiset.coe_eq_coe] at h hqueue ⊢
  simp only [← Multiset.coe_add, ← Multiset.cons_coe] at h hqueue ⊢
  rw [hqueue, Multiset.add_cons, ← Multiset.cons_add] at h
  exact (add_right_cancel h).symm

/-! ## The queues and the cycle -/

/-- What every operation of both schedulers keeps. -/
structure Inv (tenantId : J → String) (weights : WeightMap) (q : TenantQueues J)
    (cycle : Rotation String) : Prop where
  valid : weights.Valid
  tenants : q.tenants = weights.tenants
  slots : cycle.slots = buildWeightCycle weights
  own : ∀ t, ∀ job ∈ q.queue t, tenantId job = t

def line (q : TenantQueues J) (cycle : Rotation String) : TurnTaking.Line String :=
  ⟨cycle.lap, fun t => (q.queue t).length⟩

variable {tenantId : J → String} {weights : WeightMap} {q : TenantQueues J}
  {cycle cycle' : Rotation String} {t : String}

theorem inv_start (h : weights.Valid) :
    Inv tenantId weights (empty weights)
      (.start (buildWeightCycle weights) (WeightMap.buildWeightCycle_ne_nil h)) where
  valid := h
  tenants := rfl
  slots := rfl
  own t job hjob := by cases hjob

theorem Inv.mem_slots_iff (h : Inv tenantId weights q cycle) :
    t ∈ cycle.slots ↔ t ∈ q.tenants := by
  rw [h.slots, h.tenants]
  exact WeightMap.mem_buildWeightCycle_iff h.valid

theorem Inv.set (h : Inv tenantId weights q cycle) (hslots : cycle'.slots = cycle.slots)
    {jobs : List J} (hjobs : ∀ job ∈ jobs, tenantId job = t) :
    Inv tenantId weights (q.set t jobs) cycle' where
  valid := h.valid
  tenants := h.tenants
  slots := hslots.trans h.slots
  own u job hjob := by
    by_cases hu : u = t
    · subst hu
      rw [queue_set_self] at hjob
      exact hjobs job hjob
    · rw [queue_set_of_ne q hu] at hjob
      exact h.own u job hjob

/-- Some slot has a job exactly if the size says so. -/
theorem Inv.size_pos_iff (h : Inv tenantId weights q cycle) :
    0 < q.size ↔ ∃ t ∈ cycle.slots, q.queue t ≠ [] := by
  rw [q.size_pos_iff]
  exact exists_congr fun t => and_congr_left fun _ => h.mem_slots_iff.symm

theorem line_set (q : TenantQueues J) (t : String) (jobs : List J) (cycle : Rotation String) :
    (q.set t jobs).line cycle =
      ⟨cycle.lap, Function.update (q.line cycle).backlog t jobs.length⟩ := by
  have hbacklog : (fun u => ((q.set t jobs).queue u).length) =
      Function.update (fun u => (q.queue u).length) t jobs.length := by
    ext u
    by_cases hu : u = t
    · subst hu
      rw [queue_set_self, Function.update_self]
    · rw [queue_set_of_ne q hu, Function.update_of_ne hu]
  exact congrArg (TurnTaking.Line.mk cycle.lap) hbacklog

/-- Nothing is due when the size is 0. -/
theorem Inv.step_idle (h : Inv tenantId weights q cycle) (hsize : q.size = 0) :
    TurnTaking.Step (q.line cycle) .idle (q.line cycle) := by
  apply TurnTaking.Step.idle
  intro t ht
  by_contra hne
  have hpos : 0 < q.size := by
    apply h.size_pos_iff.mpr
    exact ⟨t, cycle.lap_perm.mem_iff.mp ht, fun hnil => hne (by rw [hnil]; rfl)⟩
  exact absurd hsize hpos.ne'

/-- A job leaves the queue that has the turn. -/
theorem step_served {job : J} {rest : List J}
    (hturn : Turn (fun u => q.queue u ≠ []) cycle.lap t cycle'.lap)
    (hqueue : (q.queue t).Perm (job :: rest)) :
    TurnTaking.Step (q.line cycle) (.served t) ((q.set t rest).line cycle') := by
  have hlength : rest.length = (q.queue t).length - 1 := by
    rw [hqueue.length_eq, List.length_cons, Nat.add_sub_cancel]
  rw [line_set, hlength]
  apply TurnTaking.Step.served
  simpa only [List.length_pos_iff] using hturn

/-- A job joins a queue. -/
theorem step_grown (q : TenantQueues J) (t : String) (job : J) (cycle : Rotation String) :
    TurnTaking.Step (q.line cycle) .grown ((q.set t (q.queue t ++ [job])).line cycle) := by
  rw [line_set]
  apply TurnTaking.Step.grown
  intro u
  by_cases hu : u = t
  · subst hu
    rw [Function.update_self, List.length_append]
    exact Nat.le_add_right _ _
  · rw [Function.update_of_ne hu]
    rfl

theorem step_same (q : TenantQueues J) (cycle : Rotation String) :
    TurnTaking.Step (q.line cycle) .grown (q.line cycle) :=
  TurnTaking.Step.grown fun _ => le_rfl

/-! ## Texts -/

/-- `f"unknown tenant_id {t!r}; allowed tenants: {sorted(self._queues)}"`. -/
def unknownTenant (repr : String → String) (q : TenantQueues J) (t : String) : String :=
  "unknown tenant_id " ++ repr t ++ "; allowed tenants: [" ++
    ", ".intercalate ((q.tenants.mergeSort fun a b => decide (a ≤ b)).map repr) ++ "]"

end TenantQueues

/-- The check of one weight. -/
def weightError (repr : String → String) (e : String × ℤ) : Option PyException :=
  if e.2 ≤ 0 then
    some (valueError ("weight for " ++ repr e.1 ++ " must be a positive integer, got " ++
      (PyInt.int e.2).format))
  else none

theorem weightError_eq_none_iff {repr : String → String} {e : String × ℤ} :
    weightError repr e = none ↔ 0 < e.2 := by
  rw [weightError]
  split
  · rename_i hle
    simp [hle]
  · rename_i hlt
    simpa using hlt

/-! ## Calls -/

inductive SchedulerCall (J : Type)
  | enqueue (job : J)
  | dequeue
  | peek
  | size

/-- What a call returns, or raises; `R` is what `enqueue` returns. -/
inductive SchedulerReply (J R : Type)
  | enqueued (result : R)
  | job (job : Option J)
  | size (n : ℕ)
  | raised (error : PyException)

abbrev Dialogue (J R : Type) := List (SchedulerCall J × SchedulerReply J R)

def SchedulerCall.isDequeue {J : Type} : SchedulerCall J → Bool
  | dequeue => true
  | _ => false

/-- The jobs that `dequeue` has returned, in order. -/
def dequeued {J R : Type} (d : Dialogue J R) : List J :=
  d.filterMap fun
    | (.dequeue, .job job) => job
    | _ => none

theorem dequeued_append {J R : Type} (d d' : Dialogue J R) :
    dequeued (d ++ d') = dequeued d ++ dequeued d' :=
  List.filterMap_append

open TurnTaking

def eventOf {J R : Type} (tenantId : J → String) :
    SchedulerCall J × SchedulerReply J R → Event String
  | (.dequeue, .job (some job)) => .served (tenantId job)
  | (.dequeue, _) => .idle
  | _ => .grown

structure TurnPolicy (σ J R : Type) where
  service : Service σ (SchedulerCall J) (SchedulerReply J R)
  tenantId : J → String
  Inv : σ → Prop
  line : σ → Line String
  inv_call : ∀ s c, Inv s → Inv (service.call s c).1
  step_call : ∀ s c, Inv s →
    Step (line s) (eventOf tenantId (c, (service.call s c).2)) (line (service.call s c).1)

namespace TurnPolicy

variable {σ J R : Type} (P : TurnPolicy σ J R) {s : σ} (cs : List (SchedulerCall J))

/-- **Every sequence of calls** is a trace of the line. -/
theorem trace (hs : P.Inv s) :
    Trace (P.line s) ((P.service.dialogue s cs).map (eventOf P.tenantId))
      (P.line (P.service.after s cs)) := by
  induction cs generalizing s with
  | nil => exact Trace.nil _
  | cons c cs ih => exact Trace.cons (P.step_call s c hs) (ih (P.inv_call s c hs))

theorem countP_taken (s : σ) :
    ((P.service.dialogue s cs).map (eventOf P.tenantId)).countP Event.taken =
      cs.countP SchedulerCall.isDequeue := by
  induction cs generalizing s with
  | nil => rfl
  | cons c cs ih =>
      rw [Service.dialogue, List.map_cons, List.countP_cons, List.countP_cons, ih]
      have hsame : ∀ r : SchedulerReply J R, (eventOf P.tenantId (c, r)).taken = c.isDequeue := by
        intro r
        cases c with
        | dequeue => cases r with
          | job job => cases job <;> rfl
          | _ => rfl
        | _ => rfl
      rw [hsame]

/-- A tenant is served when a job of it is returned. -/
theorem count_served (d : Dialogue J R) (t : String) :
    (d.map (eventOf P.tenantId)).count (.served t) =
      (dequeued d).countP fun job => decide (P.tenantId job = t) := by
  induction d with
  | nil => rfl
  | cons p d ih =>
      obtain ⟨c, r⟩ := p
      rw [List.map_cons, List.count_cons, ih]
      cases c with
      | dequeue => cases r with
        | job job => cases job with
          | none => rfl
          | some job =>
              have hcons : dequeued ((.dequeue, .job (some job)) :: d : Dialogue J R) =
                  job :: dequeued d := rfl
              rw [hcons, List.countP_cons]
              by_cases ht : P.tenantId job = t <;> simp [eventOf, ht]
        | _ => rfl
      | _ => rfl

/-- **Shares are exact** over whole laps, if every tenant has enough queued. -/
theorem countP_dequeued_eq (hs : P.Inv s) {k : ℕ} (hlap : (P.line s).lap ≠ [])
    (hn : cs.countP SchedulerCall.isDequeue = k * (P.line s).lap.length)
    (henough : ∀ t ∈ (P.line s).lap, k * (P.line s).lap.count t ≤ (P.line s).backlog t)
    (t : String) :
    (dequeued (P.service.dialogue s cs)).countP (fun job => decide (P.tenantId job = t)) =
      k * (P.line s).lap.count t := by
  rw [← P.count_served]
  apply TurnTaking.count_served_eq (P.trace cs hs) hlap _ henough
  rw [P.countP_taken, hn]

/-- **Nobody starves**: with more than `i` jobs queued, a tenant has seen `i + 1`
of them leave after `i + 1` longest waits. -/
theorem lt_countP_dequeued (hs : P.Inv s) {t : String} {i : ℕ} (hi : i < (P.line s).backlog t)
    (hmem : t ∈ (P.line s).lap)
    (hn : (i + 1) * ((P.line s).lap.length - (P.line s).lap.count t + 1) ≤
      cs.countP SchedulerCall.isDequeue) :
    i < (dequeued (P.service.dialogue s cs)).countP fun job => decide (P.tenantId job = t) := by
  rw [← P.count_served]
  apply TurnTaking.le_count_served (P.trace cs hs) hi hmem
  have hidx := TurnTaking.idxOf_le t (P.line s).lap
  rw [P.countP_taken]
  rw [Nat.succ_mul] at hn
  omega

end TurnPolicy

end KernelQ.ControlPlane
