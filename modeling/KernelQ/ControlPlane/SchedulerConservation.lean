import KernelQ.ControlPlane.SchedulerComposed

/-!
# What the composed scheduler holds

Jobs come in by accepted calls of `enqueue` and leave by `dequeue`, and there
are never more of them than the capacity (`sound`).
-/

namespace KernelQ.ControlPlane.SchedulerComposed

open KernelQ.Foundation

/-- The jobs that `enqueue` has accepted, in order. -/
def accepted (d : Dialogue Job EnqueueResult) : List Job :=
  d.filterMap fun
    | (.enqueue job, .enqueued result) => if result.status = .accepted then some job else none
    | _ => none

theorem accepted_append (d d' : Dialogue Job EnqueueResult) :
    accepted (d ++ d') = accepted d ++ accepted d' :=
  List.filterMap_append

namespace ComposedScheduler

variable {repr : String → String} {capacity : ℤ} {weights : WeightMap} {s s₀ : ComposedScheduler}

variable (repr) in
/-- One call: what was accepted comes in, what was dequeued goes out. -/
theorem jobs_call (hs : Inv weights s) (c : SchedulerCall Job) :
    (s.queues.jobs ++ accepted [(c, (s.call repr c).2)]).Perm
      (dequeued [(c, (s.call repr c).2)] ++ (s.call repr c).1.queues.jobs) := by
  cases c with
  | enqueue job =>
      have hreply : accepted [(.enqueue job, .enqueued (s.enqueue repr job).1)] =
          if (s.enqueue repr job).1.status = .accepted then [job] else [] := by
        by_cases hstatus : (s.enqueue repr job).1.status = .accepted <;> simp [accepted, hstatus]
      rw [call, hreply]
      rcases enqueue_spec repr s job with ⟨-, hstatus, h⟩ | ⟨-, -, hstatus, h⟩ |
        ⟨hjob, -, hstatus, h⟩
      · rw [hstatus, h, if_neg (by decide), List.append_nil]
        exact List.Perm.refl _
      · rw [hstatus, h, if_neg (by decide), List.append_nil]
        exact List.Perm.refl _
      · rw [hstatus, h, if_pos rfl]
        exact (s.queues.jobs_append_perm hjob.known job).symm
  | dequeue =>
      rcases dequeue_spec hs.queues with ⟨-, h, -⟩ |
        ⟨-, t, index, job, cycle, -, hqueue, -, hturn, -, h⟩
      · rw [call, h]
        simp [accepted, dequeued, replyOf]
      · rw [call, h]
        have hperm := s.queues.jobs_removed_perm (mem_tenants_of_turn hs.queues hturn) hqueue
        simpa [accepted, dequeued, replyOf] using hperm
  | peek => simp [accepted, dequeued, call]
  | size => simp [accepted, dequeued, call]

variable (repr) in
/-- **Nothing is lost and nothing is duplicated** by any sequence of calls. -/
theorem jobs_after (hs : Inv weights s) (cs : List (SchedulerCall Job)) :
    (s.queues.jobs ++ accepted ((service repr).dialogue s cs)).Perm
      (dequeued ((service repr).dialogue s cs) ++
        ((service repr).after s cs).queues.jobs) := by
  induction cs generalizing s with
  | nil => simp [accepted, dequeued]
  | cons c cs ih =>
      have hone := jobs_call repr hs c
      have hrest := ih (inv_call repr hs c)
      rw [Service.dialogue, Service.after, ← List.singleton_append, accepted_append,
        dequeued_append, ← List.append_assoc, List.append_assoc (dequeued _)]
      apply (hone.append_right _).trans
      rw [List.append_assoc]
      exact hrest.append_left _

/-! ## Every reachable state -/

/-- What holds of a state and of the calls that have led to it. -/
structure Sound (repr : String → String) (capacity : ℤ) (weights : WeightMap)
    (s : ComposedScheduler) (d : Dialogue Job EnqueueResult) : Prop where
  conserved : (accepted d : Multiset Job) = dequeued d + s.queues.jobs
  size : s.queues.size = s.queues.jobs.length
  bounded : s.queues.size ≤ capacity
  rejected : ∀ job later, (s.enqueue repr job).1.status ≠ .accepted →
    (service repr).replies (s.enqueue repr job).2 later = (service repr).replies s later
  full : ∀ job, (s.enqueue repr job).1.status = .rejectedFull ↔
    strip job.jobId ≠ "" ∧ strip job.tenantId ≠ "" ∧ job.tenantId ∈ weights.tenants ∧
      s.queues.size = capacity
  /-- Wherever the pointer is. -/
  dequeue : ∀ cycle : Rotation String, cycle.slots = s.cycle.slots →
    ((∃ job, ({ s with cycle } : ComposedScheduler).dequeue.1 = .ok (some job)) ↔
        0 < s.queues.size) ∧
      ((∃ job, ({ s with cycle } : ComposedScheduler).peek = .ok (some job)) ↔
        0 < s.queues.size) ∧
      (({ s with cycle } : ComposedScheduler).nextTenantAdvance.1 = none ↔ s.queues.size = 0)

/-- A job is turned away for want of room exactly when nothing else is wrong with
it and the capacity is used up. -/
theorem full_iff (hs : Inv weights s) (job : Job) :
    (s.enqueue repr job).1.status = .rejectedFull ↔
      strip job.jobId ≠ "" ∧ strip job.tenantId ≠ "" ∧ job.tenantId ∈ weights.tenants ∧
        s.queues.size = s.capacity := by
  have hadmissible : s.Admissible job ↔
      strip job.jobId ≠ "" ∧ strip job.tenantId ≠ "" ∧ job.tenantId ∈ weights.tenants := by
    rw [← hs.queues.tenants]
    exact ⟨fun h => ⟨h.jobId, h.tenantId, h.known⟩, fun ⟨h, h', h''⟩ => ⟨h, h', h''⟩⟩
  have hbounded := hs.bounded
  rcases enqueue_spec repr s job with ⟨hjob, hstatus, -⟩ | ⟨hjob, hfull, hstatus, -⟩ |
    ⟨hjob, hroom, hstatus, -⟩
  · rw [hstatus]
    constructor
    · intro h
      cases h
    · rintro ⟨h, h', h'', -⟩
      exact absurd (hadmissible.mpr ⟨h, h', h''⟩) hjob
  · obtain ⟨h, h', h''⟩ := hadmissible.mp hjob
    rw [hstatus]
    exact iff_of_true rfl ⟨h, h', h'', le_antisymm hbounded hfull⟩
  · rw [hstatus]
    constructor
    · intro h
      cases h
    · rintro ⟨-, -, -, hsize⟩
      exact absurd hsize hroom.ne

/-- A job that is not accepted leaves no trace. -/
theorem enqueue_rejected {job : Job} (h : (s.enqueue repr job).1.status ≠ .accepted) :
    (s.enqueue repr job).2 = s := by
  rcases enqueue_spec repr s job with ⟨-, -, h'⟩ | ⟨-, -, -, h'⟩ | ⟨-, -, hstatus, -⟩
  · exact h'
  · exact h'
  · exact absurd hstatus h

/-- Jobs come out, from any position in the cycle, exactly when there are any. -/
theorem serves_iff (hs : s.queues.Inv Job.tenantId weights s.cycle) :
    ((∃ job, s.dequeue.1 = .ok (some job)) ↔ 0 < s.queues.size) ∧
      ((∃ job, s.peek = .ok (some job)) ↔ 0 < s.queues.size) ∧
      (s.nextTenantAdvance.1 = none ↔ s.queues.size = 0) := by
  rcases dequeue_spec hs with ⟨hzero, hdequeue, hpeek⟩ |
    ⟨hpos, t, index, job, cycle, -, -, -, -, hpeek, hdequeue⟩
  · rw [hdequeue, hpeek, hzero, nextTenantAdvance, if_pos hzero]
    simp
  · obtain ⟨t, cycle, hnext, -⟩ := nextTenantAdvance_spec hs hpos
    rw [hdequeue, hpeek, hnext]
    simp [hpos, hpos.ne']

/-- **The composed scheduler neither loses nor duplicates jobs**, and keeps to its
bound. -/
theorem sound (hinit : init repr capacity weights = .ok s₀) (cs : List (SchedulerCall Job)) :
    Sound repr capacity weights ((service repr).after s₀ cs) ((service repr).dialogue s₀ cs) := by
  obtain ⟨hinv, hcapacity, hempty⟩ := inv_init hinit
  obtain ⟨hs, hcapacity⟩ : Inv weights ((service repr).after s₀ cs) ∧
      ((service repr).after s₀ cs).capacity = capacity := by
    apply Service.after_invariant (P := fun s => Inv weights s ∧ s.capacity = capacity) _
      ⟨hinv, hcapacity⟩
    intro s c hs
    exact ⟨inv_call repr hs.1 c, (capacity_call hs.1 c).trans hs.2⟩
  refine ⟨?_, TenantQueues.size_eq_length_jobs _, hcapacity ▸ hs.bounded, ?_, ?_, ?_⟩
  · have hperm := jobs_after repr hinv cs
    rw [hempty, List.nil_append] at hperm
    exact Multiset.coe_eq_coe.mpr hperm
  · intro job later h
    rw [enqueue_rejected h]
  · intro job
    rw [full_iff hs, hcapacity]
  · intro cycle hslots
    have hqueues : TenantQueues.Inv Job.tenantId weights _ cycle :=
      { hs.queues with slots := hslots.trans hs.queues.slots }
    exact serves_iff hqueues

theorem sound_twoToOne :
    ∃ s₀, init (fun t => t) 1 .twoToOne = .ok s₀ ∧
      Sound (fun t => t) 1 .twoToOne
        ((service fun t => t).after s₀ [.enqueue ⟨"job", "tenant-a", 5, 0⟩, .dequeue])
        ((service fun t => t).dialogue s₀ [.enqueue ⟨"job", "tenant-a", 5, 0⟩, .dequeue]) := by
  have hinit := init_eq_ok (show initError (fun t => t) 1 .twoToOne = none by decide +kernel)
  exact ⟨_, hinit, sound hinit _⟩

end ComposedScheduler

end KernelQ.ControlPlane.SchedulerComposed
