import KernelQ.ControlPlane.SchedulerFairness

/-!
# The composed scheduler refines the weighted round-robin scheduler

Where the jobs of a tenant come in the order in which the composed scheduler
ranks them, its best job is its oldest one; then the two schedulers answer alike
as long as the composed one has room (`composed_refines_weightedRr`).
-/

namespace KernelQ.ControlPlane.SchedulerComposed

open KernelQ.Foundation
open SchedulerWeightedRr (WeightedRoundRobinScheduler)

/-- The job without its priority. -/
def Job.toWeightedRr (job : Job) : SchedulerWeightedRr.Job := ⟨job.jobId, job.tenantId, job.createdAt⟩

def toWeightedRr : SchedulerCall Job → SchedulerCall SchedulerWeightedRr.Job
  | .enqueue job => .enqueue job.toWeightedRr
  | .dequeue => .dequeue
  | .peek => .peek
  | .size => .size

/-- The jobs that `enqueue` is called with, in order. -/
def offered (cs : List (SchedulerCall Job)) : List Job :=
  cs.filterMap fun
    | .enqueue job => some job
    | _ => none

/-- The same job id, the same size, or both have taken the job. -/
def SameAnswer :
    SchedulerReply Job EnqueueResult → SchedulerReply SchedulerWeightedRr.Job Unit → Prop
  | .job job, .job job' => job.map Job.jobId = job'.map SchedulerWeightedRr.Job.jobId
  | .size n, .size n' => n = n'
  | .enqueued result, .enqueued () => result.status = .accepted
  | _, _ => False

/-- An `enqueue` has found no room. -/
def FoundFull : SchedulerReply Job EnqueueResult → Prop
  | .enqueued result => result.status = .rejectedFull
  | _ => False

/-- The order in which jobs of one tenant must come. -/
def Ordered (a b : Job) : Prop :=
  a.tenantId = b.tenantId → a.priority = b.priority ∧
    (a.createdAt < b.createdAt ∨ a.createdAt = b.createdAt ∧ a.jobId < b.jobId)

instance : DecidablePred FoundFull
  | .enqueued _ => inferInstanceAs (Decidable (_ = _))
  | .job _ => isFalse id
  | .size _ => isFalse id
  | .raised _ => isFalse id

instance : DecidableRel Ordered := fun _ _ => inferInstanceAs (Decidable (_ → _ ∧ (_ ∨ _ ∧ _)))

/-! ## The best job -/

theorem not_beats_of_ordered {a b : Job} (h : Ordered a b) (htenant : a.tenantId = b.tenantId) :
    ¬ b.Beats a := by
  obtain ⟨hpriority, hlt | ⟨heq, hid⟩⟩ := h htenant
  · rintro (hgt | ⟨-, hlt'⟩ | ⟨-, heq', -⟩)
    · exact absurd hpriority hgt.ne
    · exact absurd hlt hlt'.asymm
    · exact absurd heq' hlt.ne'
  · rintro (hgt | ⟨-, hlt'⟩ | ⟨-, -, hid'⟩)
    · exact absurd hpriority hgt.ne
    · exact absurd heq hlt'.ne'
    · exact String.lt_asymm hid hid'

theorem bestFrom_of_not_beats {best : Job} {bestIndex i : ℕ} {jobs : List Job}
    (h : ∀ job ∈ jobs, ¬ job.Beats best) : bestFrom best bestIndex i jobs = bestIndex := by
  induction jobs generalizing i with
  | nil => rfl
  | cons candidate rest ih =>
      rw [bestFrom, if_neg (h candidate List.mem_cons_self)]
      exact ih fun job hjob => h job (List.mem_cons_of_mem candidate hjob)

/-- **Of an ordered queue, the best job is the first.** -/
theorem bestJobIndex_of_ordered {t : String} {job : Job} {rest : List Job}
    (hown : ∀ j ∈ job :: rest, j.tenantId = t) (hordered : (job :: rest).Pairwise Ordered) :
    bestJobIndex (job :: rest) = .ok 0 := by
  rw [bestJobIndex, bestFrom_of_not_beats]
  intro j hj
  apply not_beats_of_ordered ((List.pairwise_cons.mp hordered).1 j hj)
  rw [hown job List.mem_cons_self, hown j (List.mem_cons_of_mem job hj)]

/-! ## The simulation -/

/-- What is still to be called, for jobs that are still to be queued. -/
structure Expected (repr : String → String) (s : ComposedScheduler) (cs : List (SchedulerCall Job)) :
    Prop where
  admissible : ∀ job ∈ offered cs, s.Admissible job
  room : ∀ reply ∈ (ComposedScheduler.service repr).replies s cs, ¬ FoundFull reply
  ordered : ∀ t, (s.queues.queue t ++ offered cs).Pairwise Ordered

/-- The two schedulers are in step. -/
structure InStep (weights : WeightMap) (s : ComposedScheduler) (w : WeightedRoundRobinScheduler) :
    Prop where
  inv : s.Inv weights
  inv' : w.Inv weights
  lap : s.cycle.lap = w.cycle.lap
  queue : ∀ t, w.queues.queue t = (s.queues.queue t).map Job.toWeightedRr

variable {repr : String → String} {weights : WeightMap} {s : ComposedScheduler}
  {w : WeightedRoundRobinScheduler} {cs : List (SchedulerCall Job)}

theorem InStep.size (h : InStep weights s w) : s.queues.size = w.queues.size := by
  have hlengths : (fun t => (w.queues.queue t).length) = fun t => (s.queues.queue t).length := by
    ext t
    rw [h.queue t, List.length_map]
  rw [TenantQueues.size, TenantQueues.size, hlengths, h.inv.queues.tenants, h.inv'.tenants]

theorem InStep.due_iff (h : InStep weights s w) (t : String) :
    w.queues.queue t ≠ [] ↔ s.queues.queue t ≠ [] := by
  rw [h.queue t, ne_eq, List.map_eq_nil_iff]

/-- **Both have the same job next**, or none. -/
theorem InStep.next (h : InStep weights s w)
    (hordered : ∀ t, (s.queues.queue t).Pairwise Ordered) :
    (s.dequeue = (.ok none, s) ∧ s.peek = .ok none ∧ w.dequeue = (none, w) ∧ w.peek = none) ∨
      ∃ t job rest cycle cycle', s.queues.queue t = job :: rest ∧
        cycle.lap = cycle'.lap ∧ s.peek = .ok (some job) ∧
        s.dequeue = (.ok (some job), { s with queues := s.queues.set t rest, cycle }) ∧
        w.peek = some job.toWeightedRr ∧
        w.dequeue = (some job.toWeightedRr,
          ⟨w.queues.set t (rest.map Job.toWeightedRr), cycle'⟩) := by
  have hsize := h.size
  rcases s.dequeue_spec h.inv.queues with ⟨hzero, hdequeue, hpeek⟩ |
    ⟨hpos, t, index, job, cycle, hindex, hperm, -, hturn, hpeek, hdequeue⟩
  · rcases w.dequeue_spec h.inv' with ⟨-, hdequeue', hpeek'⟩ | ⟨hpos, -⟩
    · exact Or.inl ⟨hdequeue, hpeek, hdequeue', hpeek'⟩
    · rw [← hsize, hzero] at hpos
      exact absurd hpos (Nat.lt_irrefl 0)
  · rcases w.dequeue_spec h.inv' with ⟨hzero, -⟩ |
      ⟨-, t', job', rest', cycle', hqueue', -, hturn', hpeek', hdequeue'⟩
    · rw [hsize, hzero] at hpos
      exact absurd hpos (Nat.lt_irrefl 0)
    · -- the turns are the same, since the same tenants have jobs
      simp only [h.due_iff, ← h.lap] at hturn'
      obtain ⟨rfl, hlap⟩ := hturn.unique hturn'
      rw [h.queue t] at hqueue'
      obtain ⟨first, rest, hqueue, rfl, rfl⟩ := List.map_eq_cons_iff.mp hqueue'
      -- the best job is the first
      have hown : ∀ j ∈ first :: rest, j.tenantId = t := hqueue ▸ h.inv.queues.own t
      rw [hqueue, bestJobIndex_of_ordered hown (hqueue ▸ hordered t)] at hindex
      cases hindex
      rw [hqueue, List.eraseIdx_cons_zero] at hperm hdequeue
      have hcons : first ::ₘ (rest : Multiset Job) = job ::ₘ (rest : Multiset Job) :=
        Multiset.coe_eq_coe.mpr hperm
      obtain rfl : first = job := (Multiset.cons_inj_left _).mp hcons
      exact Or.inr ⟨t, first, rest, cycle, cycle', hqueue, hlap, hpeek, hdequeue, hpeek',
        hdequeue'⟩

/-- What a call leaves of the expectations. -/
theorem Expected.tail {c : SchedulerCall Job} (hs : s.Inv weights)
    (h : Expected repr s (c :: cs))
    (hqueue : ∀ t, ((s.call repr c).1.queues.queue t ++ offered cs).Sublist
      (s.queues.queue t ++ offered (c :: cs))) :
    Expected repr (s.call repr c).1 cs where
  admissible job hjob := by
    have hsub : (offered cs).Sublist (offered (c :: cs)) :=
      (List.sublist_cons_self c cs).filterMap _
    obtain ⟨hid, htenant, hknown⟩ := h.admissible job (hsub.subset hjob)
    refine ⟨hid, htenant, ?_⟩
    rw [(ComposedScheduler.inv_call repr hs c).queues.tenants, ← hs.queues.tenants]
    exact hknown
  room reply hreply := h.room reply (List.mem_cons_of_mem _ hreply)
  ordered t := (h.ordered t).sublist (hqueue t)

variable (repr) in
theorem InStep.enqueue (h : InStep weights s w) {job : Job} (hjob : s.Admissible job)
    (hroom : (s.enqueue repr job).1.status ≠ .rejectedFull) :
    SameAnswer (s.call repr (.enqueue job)).2 (w.call repr (.enqueue job.toWeightedRr)).2 ∧
      InStep weights (s.call repr (.enqueue job)).1 (w.call repr (.enqueue job.toWeightedRr)).1 ∧
      (s.call repr (.enqueue job)).1.queues =
        s.queues.set job.tenantId (s.queues.queue job.tenantId ++ [job]) := by
  have hknown : job.toWeightedRr.tenantId ∈ w.queues.tenants := by
    rw [h.inv'.tenants, ← h.inv.queues.tenants]
    exact hjob.known
  have hinv := ComposedScheduler.inv_call repr h.inv (.enqueue job)
  have hinv' := WeightedRoundRobinScheduler.inv_call repr h.inv'
    (.enqueue job.toWeightedRr)
  rcases ComposedScheduler.enqueue_spec repr s job with ⟨hnot, -⟩ | ⟨-, -, hfull, -⟩ |
    ⟨-, -, hstatus, hafter⟩
  · exact absurd hjob hnot
  · exact absurd hfull hroom
  · have hcall' : w.call repr (.enqueue job.toWeightedRr) =
        (⟨w.queues.set job.tenantId (w.queues.queue job.tenantId ++ [job.toWeightedRr]), w.cycle⟩,
          .enqueued ()) := by
      rw [WeightedRoundRobinScheduler.call, WeightedRoundRobinScheduler.enqueue_eq_ok hknown]
      rfl
    rw [hcall'] at hinv' ⊢
    rw [ComposedScheduler.call, hafter] at hinv ⊢
    refine ⟨hstatus, ⟨hinv, hinv', h.lap, ?_⟩, rfl⟩
    intro t
    by_cases ht : t = job.tenantId
    · subst ht
      rw [TenantQueues.queue_set_self, TenantQueues.queue_set_self, List.map_append,
        h.queue job.tenantId]
      rfl
    · rw [TenantQueues.queue_set_of_ne _ ht, TenantQueues.queue_set_of_ne _ ht]
      exact h.queue t

/-- **One call**: the answers are the same, and the schedulers stay in step. -/
theorem InStep.call (h : InStep weights s w) {c : SchedulerCall Job}
    (hexp : Expected repr s (c :: cs)) :
    SameAnswer (s.call repr c).2 (w.call repr (toWeightedRr c)).2 ∧
      InStep weights (s.call repr c).1 (w.call repr (toWeightedRr c)).1 ∧
      Expected repr (s.call repr c).1 cs := by
  have hordered : ∀ t, (s.queues.queue t).Pairwise Ordered :=
    fun t => (hexp.ordered t).sublist (List.sublist_append_left _ _)
  cases c with
  | enqueue job =>
      have hjob : s.Admissible job := hexp.admissible job List.mem_cons_self
      have hroom : (s.enqueue repr job).1.status ≠ .rejectedFull :=
        hexp.room _ List.mem_cons_self
      obtain ⟨hanswer, hstep, hqueues⟩ := h.enqueue repr hjob hroom
      -- the job moves from the calls still to come to the end of its queue
      refine ⟨hanswer, hstep, hexp.tail h.inv fun t => ?_⟩
      rw [hqueues]
      by_cases ht : t = job.tenantId
      · subst ht
        rw [TenantQueues.queue_set_self, List.append_assoc]
        exact List.Sublist.refl _
      · rw [TenantQueues.queue_set_of_ne _ ht]
        exact (List.Sublist.refl _).append (List.sublist_cons_self job _)
  | dequeue =>
      have hinv := ComposedScheduler.inv_call repr h.inv .dequeue
      have hinv' := WeightedRoundRobinScheduler.inv_call repr h.inv' .dequeue
      have htail := hexp.tail h.inv
      rw [toWeightedRr]
      rw [ComposedScheduler.call] at hinv htail ⊢
      rw [WeightedRoundRobinScheduler.call] at hinv' ⊢
      rcases h.next hordered with ⟨hd, -, hd', -⟩ |
        ⟨t, job, rest, cycle, cycle', hqueue, hlap, -, hd, -, hd'⟩
      · rw [hd] at htail ⊢
        rw [hd']
        exact ⟨rfl, h, htail fun u => List.Sublist.refl _⟩
      · rw [hd] at hinv htail ⊢
        rw [hd'] at hinv' ⊢
        refine ⟨rfl, ⟨hinv, hinv', hlap, fun u => ?_⟩, htail fun u => ?_⟩
        · by_cases hu : u = t
          · subst hu
            rw [TenantQueues.queue_set_self, TenantQueues.queue_set_self]
          · rw [TenantQueues.queue_set_of_ne _ hu, TenantQueues.queue_set_of_ne _ hu]
            exact h.queue u
        · by_cases hu : u = t
          · subst hu
            rw [TenantQueues.queue_set_self, hqueue]
            exact (List.sublist_cons_self job rest).append (List.Sublist.refl _)
          · rw [TenantQueues.queue_set_of_ne _ hu]
            exact List.Sublist.refl _
  | peek =>
      refine ⟨?_, h, hexp.tail h.inv fun t => List.Sublist.refl _⟩
      rw [toWeightedRr, ComposedScheduler.call, WeightedRoundRobinScheduler.call]
      rcases h.next hordered with ⟨-, hp, -, hp'⟩ | ⟨t, job, rest, cycle, cycle', -, -, hp, -, hp', -⟩
      · rw [hp, hp']
        rfl
      · rw [hp, hp']
        rfl
  | size => exact ⟨h.size, h, hexp.tail h.inv fun t => List.Sublist.refl _⟩

/-- **The composed scheduler refines the weighted round-robin scheduler** for jobs
that come in order and find room. -/
theorem composed_refines_weightedRr {capacity : ℤ} {s₀ : ComposedScheduler}
    {w₀ : WeightedRoundRobinScheduler}
    (hinit : ComposedScheduler.init repr capacity weights = .ok s₀)
    (hinit' : WeightedRoundRobinScheduler.init repr weights = .ok w₀)
    (cs : List (SchedulerCall Job))
    (hjobs : ∀ job ∈ offered cs, strip job.jobId ≠ "" ∧ job.tenantId ∈ weights.tenants)
    (hroom : ∀ reply ∈ (ComposedScheduler.service repr).replies s₀ cs, ¬ FoundFull reply)
    (hordered : (offered cs).Pairwise Ordered) :
    List.Forall₂ SameAnswer ((ComposedScheduler.service repr).replies s₀ cs)
      ((WeightedRoundRobinScheduler.service repr).replies w₀ (cs.map toWeightedRr)) := by
  have hstart : InStep weights s₀ w₀ ∧ Expected repr s₀ cs := by
    have hinv := (ComposedScheduler.inv_init hinit).1
    have hinv' := WeightedRoundRobinScheduler.inv_init hinit'
    obtain ⟨-, -, hnames, _, rfl⟩ := ComposedScheduler.eq_of_init hinit
    obtain ⟨-, _, rfl⟩ := WeightedRoundRobinScheduler.eq_of_init hinit'
    refine ⟨⟨hinv, hinv', rfl, fun t => rfl⟩, ⟨?_, hroom, fun t => hordered⟩⟩
    intro job hjob
    obtain ⟨hid, hknown⟩ := hjobs job hjob
    exact ⟨hid, hnames _ hknown, hknown⟩
  apply Service.replies_congr (R := fun cs s w => InStep weights s w ∧ Expected repr s cs) _ hstart
  rintro c cs s w ⟨h, hexp⟩
  exact h.call hexp

/-- Two jobs of one tenant with another one's job between them. -/
def interleaved : List (SchedulerCall Job) :=
  [.enqueue ⟨"a1", "tenant-a", 0, 1⟩, .enqueue ⟨"b1", "tenant-b", 7, 5⟩,
    .enqueue ⟨"a2", "tenant-a", 0, 2⟩, .peek, .dequeue, .size, .dequeue, .dequeue, .dequeue]

theorem composed_refines_weightedRr_interleaved :
    ∃ s₀ w₀, ComposedScheduler.init (fun t => t) 3 .twoToOne = .ok s₀ ∧
      WeightedRoundRobinScheduler.init (fun t => t) .twoToOne = .ok w₀ ∧
      List.Forall₂ SameAnswer ((ComposedScheduler.service fun t => t).replies s₀ interleaved)
        ((WeightedRoundRobinScheduler.service fun t => t).replies w₀
          (interleaved.map toWeightedRr)) := by
  have hinit := ComposedScheduler.init_eq_ok
    (show ComposedScheduler.initError (fun t => t) 3 .twoToOne = none by decide +kernel)
  have hinit' := WeightedRoundRobinScheduler.init_eq_ok
    (show WeightedRoundRobinScheduler.initError (fun t => t) .twoToOne = none by decide +kernel)
  exact ⟨_, _, hinit, hinit', composed_refines_weightedRr hinit hinit' interleaved
    (by decide +kernel) (by decide +kernel) (by decide +kernel)⟩

end KernelQ.ControlPlane.SchedulerComposed
