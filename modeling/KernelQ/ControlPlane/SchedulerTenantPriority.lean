import KernelQ.ControlPlane.SchedulerConservation
import KernelQ.ControlPlane.SchedulerPriority

/-!
# Within a tenant, the composed scheduler is the priority scheduler

One scans an unsorted queue with a comparison of its own, the other keeps a heap of tuples.
Both rank the jobs alike (`beats_iff_lt`), so the scan finds the job that the heap has at
its root, whatever else the two have done with the rest.
-/

namespace KernelQ.ControlPlane.SchedulerComposed

open KernelQ.Foundation
open SchedulerPriority (PriorityScheduler)

/-- The job without its tenant. -/
def Job.toPriority (job : Job) : SchedulerPriority.Job := ⟨job.jobId, job.priority, job.createdAt⟩

/-- What a call comes to for the tenant `t`: an `enqueue` of its job, or a `dequeue` by which
it was served. -/
def callOf (t : String) : SchedulerCall Job × SchedulerReply Job EnqueueResult →
    Option (SchedulerCall SchedulerPriority.Job)
  | (.enqueue job, _) => if job.tenantId = t then some (.enqueue job.toPriority) else none
  | (.dequeue, .job (some job)) => if job.tenantId = t then some .dequeue else none
  | _ => none

/-- The calls for `t`, in order. -/
def callsOf (t : String) (d : Dialogue Job EnqueueResult) :
    List (SchedulerCall SchedulerPriority.Job) :=
  d.filterMap (callOf t)

/-- The jobs of `t` that were dequeued, in order. -/
def servedTo (t : String) (d : Dialogue Job EnqueueResult) : List SchedulerPriority.Job :=
  ((dequeued d).filter fun job => decide (job.tenantId = t)).map Job.toPriority

/-- A job was turned away. -/
def Rejected : SchedulerReply Job EnqueueResult → Prop
  | .enqueued result => result.status ≠ .accepted
  | _ => False

instance : DecidablePred Rejected
  | .enqueued _ => inferInstanceAs (Decidable (_ ≠ _))
  | .job _ => isFalse id
  | .size _ => isFalse id
  | .raised _ => isFalse id

def toPriority : SchedulerCall Job → SchedulerCall SchedulerPriority.Job
  | .enqueue job => .enqueue job.toPriority
  | .dequeue => .dequeue
  | .peek => .peek
  | .size => .size

/-- The same job, the same size, or both have taken the job. -/
def SameReply :
    SchedulerReply Job EnqueueResult → SchedulerReply SchedulerPriority.Job Unit → Prop
  | .job job, .job job' => job.map Job.toPriority = job'
  | .size n, .size n' => n = n'
  | .enqueued result, .enqueued () => result.status = .accepted
  | _, _ => False

/-! ## The best job -/

/-- **The two comparisons are one.** -/
theorem beats_iff_lt {a b : Job} : a.Beats b ↔ a.toPriority < b.toPriority := by
  rw [SchedulerPriority.Job.lt_iff]
  rfl

/-- The loop, over a queue of which the jobs `seen` are behind it. -/
theorem bestFrom_least {best : Job} {bestIndex : ℕ} (jobs seen : List Job)
    (hbest : (seen ++ jobs)[bestIndex]? = some best)
    (hleast : ∀ j ∈ seen, best.toPriority ≤ j.toPriority) :
    ∃ job, (seen ++ jobs)[bestFrom best bestIndex seen.length jobs]? = some job ∧
      ∀ j ∈ seen ++ jobs, job.toPriority ≤ j.toPriority := by
  induction jobs generalizing best bestIndex seen with
  | nil =>
      rw [List.append_nil] at hbest ⊢
      exact ⟨best, hbest, hleast⟩
  | cons candidate rest ih =>
      have hsplit : seen ++ candidate :: rest = (seen ++ [candidate]) ++ rest := by simp
      have hlength : seen.length + 1 = (seen ++ [candidate]).length := by simp
      rw [bestFrom, hsplit, hlength]
      split
      · -- the candidate is the best so far, and stands right behind what was seen
        rename_i hbeats
        apply ih (seen ++ [candidate])
        · simp
        · intro j hj
          rcases List.mem_append.mp hj with hj | hj
          · exact (beats_iff_lt.mp hbeats).le.trans (hleast j hj)
          · rw [List.mem_singleton.mp hj]
      · rename_i hbeats
        apply ih (seen ++ [candidate])
        · rw [← hsplit]
          exact hbest
        · intro j hj
          rcases List.mem_append.mp hj with hj | hj
          · exact hleast j hj
          · rw [List.mem_singleton.mp hj]
            exact not_lt.mp fun h => hbeats (beats_iff_lt.mpr h)

/-- **The best job comes before all others of the queue.** -/
theorem bestJobIndex_least {jobs : List Job} {index : ℕ} {job : Job}
    (hindex : bestJobIndex jobs = .ok index) (hperm : jobs.Perm (job :: jobs.eraseIdx index)) :
    ∀ j ∈ jobs, job.toPriority ≤ j.toPriority := by
  cases jobs with
  | nil => cases hindex
  | cons first rest =>
      cases hindex
      obtain ⟨best, hget, hleast⟩ := bestFrom_least rest [first]
        (show ([first] ++ rest)[0]? = some first from rfl)
        (fun j hj => by rw [List.mem_singleton.mp hj])
      -- what has been taken out of the queue is that job
      obtain ⟨hlt, hbest⟩ := List.getElem?_eq_some_iff.mp hget
      have hsame := (List.getElem_cons_eraseIdx_perm hlt).trans hperm
      rw [hbest, ← Multiset.coe_eq_coe, ← Multiset.cons_coe, ← Multiset.cons_coe] at hsame
      obtain rfl : best = job := (Multiset.cons_inj_left _).mp hsame
      exact hleast

/-! ## The simulation -/

/-- The priority scheduler holds what is queued for `t`. -/
structure Holds (weights : WeightMap) (t : String) (s : ComposedScheduler)
    (p : PriorityScheduler) : Prop where
  inv : s.Inv weights
  heap : BinaryHeap.IsHeap p.heap
  jobs : p.jobs.Perm ((s.queues.queue t).map Job.toPriority)

variable {repr : String → String} {weights : WeightMap} {t : String} {s : ComposedScheduler}
  {p : PriorityScheduler} {job : Job} {cs : List (SchedulerCall Job)}

/-- An accepted job, of `t` or of somebody else. -/
theorem Holds.enqueue (h : Holds weights t s p)
    (haccepted : (s.enqueue repr job).1.status = .accepted) :
    if job.tenantId = t then
      ∃ p', p.call (.enqueue job.toPriority) = (p', .enqueued ()) ∧
        Holds weights t (s.call repr (.enqueue job)).1 p'
    else Holds weights t (s.call repr (.enqueue job)).1 p := by
  have hinv := ComposedScheduler.inv_call repr h.inv (.enqueue job)
  rw [ComposedScheduler.call] at hinv ⊢
  rcases ComposedScheduler.enqueue_spec repr s job with ⟨-, hstatus, -⟩ | ⟨-, -, hstatus, -⟩ |
    ⟨-, -, -, hafter⟩
  · rw [hstatus] at haccepted
    cases haccepted
  · rw [hstatus] at haccepted
    cases haccepted
  · rw [hafter] at hinv ⊢
    split
    · rename_i ht
      subst ht
      obtain ⟨p', heq, hheap, hjobs⟩ := p.enqueue_spec h.heap job.toPriority
      refine ⟨p', by rw [PriorityScheduler.call, heq], hinv, hheap, hjobs.trans ?_⟩
      rw [TenantQueues.queue_set_self, List.map_append]
      exact (h.jobs.cons _).trans (List.perm_append_singleton _ _).symm
    · rename_i ht
      refine ⟨hinv, h.heap, ?_⟩
      rw [TenantQueues.queue_set_of_ne _ (Ne.symm ht)]
      exact h.jobs

/-- **A dequeue that serves `t`** gives the job that the priority scheduler gives; one that
serves somebody else leaves `t` alone. -/
theorem Holds.dequeue (h : Holds weights t s p) :
    (s.dequeue = (.ok none, s) ∧ s.peek = .ok none ∧ s.queues.size = 0) ∨
      ∃ job s', s.dequeue = (.ok (some job), s') ∧ s.peek = .ok (some job) ∧
        job.tenantId ∈ s.queues.tenants ∧
        if job.tenantId = t then
          p.peek = some job.toPriority ∧
            ∃ p', p.call .dequeue = (p', .job (some job.toPriority)) ∧ Holds weights t s' p'
        else Holds weights t s' p := by
  have hinv := ComposedScheduler.inv_call (fun u => u) h.inv .dequeue
  rw [ComposedScheduler.call] at hinv
  rcases ComposedScheduler.dequeue_spec h.inv.queues with ⟨hzero, hdequeue, hpeek⟩ |
    ⟨-, u, index, job, cycle, hindex, hperm, -, hturn, hpeek, hdequeue⟩
  · exact Or.inl ⟨hdequeue, hpeek, hzero⟩
  · right
    rw [hdequeue] at hinv
    have hown : job.tenantId = u := h.inv.queues.own u job (hperm.mem_iff.mpr List.mem_cons_self)
    have hknown : u ∈ s.queues.tenants :=
      ComposedScheduler.mem_tenants_of_turn h.inv.queues hturn
    refine ⟨job, _, hdequeue, hpeek, by rwa [hown], ?_⟩
    split
    · rename_i ht
      obtain rfl : u = t := hown.symm.trans ht
      have hqueue : p.jobs.Perm (job.toPriority ::
          ((s.queues.queue u).eraseIdx index).map Job.toPriority) :=
        h.jobs.trans (hperm.map Job.toPriority)
      rcases p.dequeue_spec h.heap with ⟨hempty, -⟩ | ⟨first, p', hpop, hroot, hheap, hrest, hfirst⟩
      · rw [hempty] at hqueue
        cases hqueue.symm.eq_nil
      · -- both are the least of the same jobs
        have hle : first ≤ job.toPriority := hfirst _ (hqueue.mem_iff.mpr List.mem_cons_self)
        have hge : job.toPriority ≤ first := by
          have hmem := h.jobs.mem_iff.mp (hrest.mem_iff.mpr List.mem_cons_self)
          obtain ⟨j, hj, rfl⟩ := List.mem_map.mp hmem
          exact bestJobIndex_least hindex hperm j hj
        obtain rfl := le_antisymm hle hge
        refine ⟨hroot, p', by rw [PriorityScheduler.call, hpop], hinv, hheap, ?_⟩
        rw [TenantQueues.queue_set_self]
        exact (hrest.symm.trans hqueue).cons_inv
    · rename_i ht
      refine ⟨hinv, h.heap, ?_⟩
      rw [TenantQueues.queue_set_of_ne _ fun hu => ht (hown.trans hu.symm)]
      exact h.jobs

/-! ## Runs -/

theorem callsOf_enqueue (t : String) (job : Job) (reply : SchedulerReply Job EnqueueResult)
    (d : Dialogue Job EnqueueResult) : callsOf t ((.enqueue job, reply) :: d) =
      if job.tenantId = t then .enqueue job.toPriority :: callsOf t d else callsOf t d := by
  split
  · rename_i ht
    exact List.filterMap_cons_some (if_pos ht)
  · rename_i ht
    exact List.filterMap_cons_none (if_neg ht)

theorem callsOf_dequeue (t : String) (job : Job) (d : Dialogue Job EnqueueResult) :
    callsOf t ((.dequeue, .job (some job)) :: d) =
      if job.tenantId = t then .dequeue :: callsOf t d else callsOf t d := by
  split
  · rename_i ht
    exact List.filterMap_cons_some (if_pos ht)
  · rename_i ht
    exact List.filterMap_cons_none (if_neg ht)

theorem servedTo_dequeue (t : String) (job : Job) (d : Dialogue Job EnqueueResult) :
    servedTo t ((.dequeue, .job (some job)) :: d) =
      if job.tenantId = t then job.toPriority :: servedTo t d else servedTo t d := by
  show ((job :: dequeued d).filter fun job => decide (job.tenantId = t)).map Job.toPriority = _
  split
  · rename_i ht
    rw [List.filter_cons_of_pos (by simpa using ht)]
    rfl
  · rename_i ht
    rw [List.filter_cons_of_neg (by simpa using ht)]
    rfl

/-- **Any calls**: what `t` is served is what the priority scheduler gives. -/
theorem Holds.servedTo_eq (h : Holds weights t s p)
    (haccepted : ∀ reply ∈ (ComposedScheduler.service repr).replies s cs, ¬ Rejected reply) :
    dequeued (PriorityScheduler.service.dialogue p
        (callsOf t ((ComposedScheduler.service repr).dialogue s cs))) =
      servedTo t ((ComposedScheduler.service repr).dialogue s cs) := by
  induction cs generalizing s p with
  | nil => rfl
  | cons c cs ih =>
      have hrest : ∀ reply ∈ (ComposedScheduler.service repr).replies (s.call repr c).1 cs,
          ¬ Rejected reply := fun reply hreply => haccepted reply (List.mem_cons_of_mem _ hreply)
      rw [Service.dialogue]
      cases c with
      | enqueue job =>
          have hjob : (s.enqueue repr job).1.status = .accepted :=
            not_not.mp (haccepted _ List.mem_cons_self)
          have hstep := h.enqueue hjob
          rw [callsOf_enqueue]
          split
          · rename_i ht
            rw [if_pos ht] at hstep
            obtain ⟨p', hcall, hholds⟩ := hstep
            show dequeued ((_, (p.call _).2) :: PriorityScheduler.service.dialogue (p.call _).1 _) = _
            rw [hcall]
            exact ih hholds hrest
          · rename_i ht
            rw [if_neg ht] at hstep
            exact ih hstep hrest
      | dequeue =>
          rw [show (ComposedScheduler.service repr).call s .dequeue =
            (s.dequeue.2, ComposedScheduler.replyOf s.dequeue.1) from rfl]
          rw [ComposedScheduler.call] at hrest
          rcases h.dequeue with ⟨hdequeue, -⟩ | ⟨job, s', hdequeue, -, -, hstep⟩
          · rw [hdequeue] at hrest ⊢
            exact ih h hrest
          · -- a call to the priority scheduler only where it is `t` that is served
            rw [hdequeue] at hrest ⊢
            rw [ComposedScheduler.replyOf, callsOf_dequeue, servedTo_dequeue]
            split
            · rename_i ht
              rw [if_pos ht] at hstep
              obtain ⟨-, p', hcall, hholds⟩ := hstep
              show dequeued ((_, (p.call _).2) :: PriorityScheduler.service.dialogue (p.call _).1 _) = _
              rw [hcall]
              exact congrArg (job.toPriority :: ·) (ih hholds hrest)
            · rename_i ht
              rw [if_neg ht] at hstep
              exact ih hstep hrest
      | peek => exact ih h hrest
      | size => exact ih h hrest

/-- With one tenant, its queue is all there is. -/
theorem Holds.size_eq (hone : weights.tenants = [t]) (h : Holds weights t s p) :
    s.queues.size = p.size := by
  rw [p.size_eq_length_jobs, h.jobs.length_eq, List.length_map, TenantQueues.size,
    h.inv.queues.tenants, hone, List.map_singleton, List.sum_singleton]

/-- **With one tenant**, the two schedulers answer alike. -/
theorem Holds.call (hone : weights.tenants = [t]) (h : Holds weights t s p) (c : SchedulerCall Job)
    (haccepted : ¬ Rejected (s.call repr c).2) :
    SameReply (s.call repr c).2 (p.call (toPriority c)).2 ∧
      Holds weights t (s.call repr c).1 (p.call (toPriority c)).1 := by
  have hsize := h.size_eq hone
  have hknown : ∀ u ∈ s.queues.tenants, u = t := by
    intro u hu
    rw [h.inv.queues.tenants, hone] at hu
    exact List.mem_singleton.mp hu
  -- where nothing is queued, the heap is empty as well
  have hnone : s.queues.size = 0 → p.dequeue = .ok (none, p) ∧ p.peek = none := by
    intro hzero
    rw [hsize, p.size_eq_length_jobs] at hzero
    rcases p.dequeue_spec h.heap with ⟨-, hpop, hpeek⟩ | ⟨job, p', -, -, -, hperm, -⟩
    · exact ⟨hpop, hpeek⟩
    · rw [hperm.length_eq] at hzero
      cases hzero
  cases c with
  | enqueue job =>
      have hjob : (s.enqueue repr job).1.status = .accepted := not_not.mp haccepted
      have hstep := h.enqueue hjob
      have hadmissible : job.tenantId ∈ s.queues.tenants := by
        rcases ComposedScheduler.enqueue_spec repr s job with ⟨-, hstatus, -⟩ | ⟨h', -⟩ | ⟨h', -⟩
        · rw [hstatus] at hjob
          cases hjob
        · exact h'.known
        · exact h'.known
      rw [if_pos (hknown _ hadmissible)] at hstep
      obtain ⟨p', hcall, hholds⟩ := hstep
      rw [toPriority, hcall]
      exact ⟨hjob, hholds⟩
  | dequeue =>
      rw [toPriority, ComposedScheduler.call]
      rcases h.dequeue with ⟨hdequeue, -, hzero⟩ | ⟨job, s', hdequeue, -, hmem, hstep⟩
      · rw [hdequeue, PriorityScheduler.call, (hnone hzero).1]
        exact ⟨rfl, h⟩
      · rw [if_pos (hknown _ hmem)] at hstep
        obtain ⟨-, p', hcall, hholds⟩ := hstep
        rw [hdequeue, hcall]
        exact ⟨rfl, hholds⟩
  | peek =>
      refine ⟨?_, h⟩
      rw [toPriority, ComposedScheduler.call, PriorityScheduler.call]
      rcases h.dequeue with ⟨-, hpeek, hzero⟩ | ⟨job, s', -, hpeek, hmem, hstep⟩
      · rw [hpeek, (hnone hzero).2]
        rfl
      · rw [if_pos (hknown _ hmem)] at hstep
        rw [hpeek, hstep.1]
        rfl
  | size => exact ⟨hsize, h⟩

/-- **Within a tenant, the composed scheduler is the priority scheduler**; with a single
tenant it is altogether; and the priority scheduler does not raise, whatever is called. -/
theorem composed_is_priority_within_tenants {capacity : ℤ} {s₀ : ComposedScheduler}
    (hinit : ComposedScheduler.init repr capacity weights = .ok s₀)
    (cs : List (SchedulerCall Job))
    (haccepted : ∀ reply ∈ (ComposedScheduler.service repr).replies s₀ cs, ¬ Rejected reply) :
    (∀ t, dequeued (PriorityScheduler.service.dialogue .empty
          (callsOf t ((ComposedScheduler.service repr).dialogue s₀ cs))) =
        servedTo t ((ComposedScheduler.service repr).dialogue s₀ cs)) ∧
      (∀ t, weights.tenants = [t] →
        List.Forall₂ SameReply ((ComposedScheduler.service repr).replies s₀ cs)
          (PriorityScheduler.service.replies .empty (cs.map toPriority))) ∧
      ∀ ds, ∀ reply ∈ PriorityScheduler.service.replies .empty ds, ∀ e, reply ≠ .raised e := by
  have hstart : ∀ t, Holds weights t s₀ .empty := by
    intro t
    have hinv := (ComposedScheduler.inv_init hinit).1
    obtain ⟨-, -, -, _, rfl⟩ := ComposedScheduler.eq_of_init hinit
    exact ⟨hinv, BinaryHeap.isHeap_empty, .refl _⟩
  refine ⟨fun t => (hstart t).servedTo_eq haccepted, ?_,
    PriorityScheduler.not_raised BinaryHeap.isHeap_empty⟩
  intro t hone
  apply Service.replies_congr (R := fun cs s p => Holds weights t s p ∧
    ∀ reply ∈ (ComposedScheduler.service repr).replies s cs, ¬ Rejected reply) _
    ⟨hstart t, haccepted⟩
  rintro c cs s p ⟨h, hrest⟩
  obtain ⟨hreply, hholds⟩ := h.call hone c (hrest _ List.mem_cons_self)
  exact ⟨hreply, hholds, fun reply hmem => hrest reply (List.mem_cons_of_mem _ hmem)⟩

/-- Ties of every kind, and a job that comes twice. -/
def ties : List (SchedulerCall Job) :=
  [.enqueue ⟨"b", "tenant-a", 1, 5⟩, .enqueue ⟨"a", "tenant-a", 1, 5⟩,
    .enqueue ⟨"a", "tenant-a", 1, 5⟩, .enqueue ⟨"c", "tenant-b", 1, 5⟩,
    .enqueue ⟨"d", "tenant-a", 1, 4⟩, .peek, .dequeue, .dequeue, .enqueue ⟨"e", "tenant-a", -2, 9⟩,
    .dequeue, .dequeue, .size, .dequeue, .dequeue, .dequeue]

theorem composed_is_priority_within_tenants_ties :
    ∃ s₀, ComposedScheduler.init (fun t => t) 6 .twoToOne = .ok s₀ ∧
      (∀ t, dequeued (PriorityScheduler.service.dialogue .empty
            (callsOf t ((ComposedScheduler.service fun t => t).dialogue s₀ ties))) =
          servedTo t ((ComposedScheduler.service fun t => t).dialogue s₀ ties)) ∧
        (∀ t, WeightMap.twoToOne.tenants = [t] →
          List.Forall₂ SameReply ((ComposedScheduler.service fun t => t).replies s₀ ties)
            (PriorityScheduler.service.replies .empty (ties.map toPriority))) ∧
        ∀ ds, ∀ reply ∈ PriorityScheduler.service.replies .empty ds, ∀ e, reply ≠ .raised e := by
  have hinit := ComposedScheduler.init_eq_ok
    (show ComposedScheduler.initError (fun t => t) 6 .twoToOne = none by decide +kernel)
  exact ⟨_, hinit, composed_is_priority_within_tenants hinit ties (by decide +kernel)⟩

end KernelQ.ControlPlane.SchedulerComposed
