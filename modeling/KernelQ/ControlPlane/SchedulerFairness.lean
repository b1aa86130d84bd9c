import KernelQ.ControlPlane.SchedulerComposed
import KernelQ.ControlPlane.SchedulerWeightedRr

/-!
# Fairness of the weighted schedulers

Both schedulers take turns in a lap with `share w` slots for a tenant of weight
`w`. Over whole laps the shares are exact as long as nobody runs out of jobs,
wherever the pointer stands (`shares_exact`); and a tenant with a job waits no
longer than all slots of the others take (`no_starvation`).
-/

namespace KernelQ.ControlPlane

open KernelQ.Foundation

section Statements

variable {σ J R : Type} (S : Service σ (SchedulerCall J) (SchedulerReply J R))
  (tenantId : J → String) (queued : σ → String → List J) (weights : WeightMap) (s : σ)

/-- In `k` laps, each tenant with enough jobs at the start gets `k` times its
share of the jobs, whatever is called in between. -/
def SharesExact : Prop :=
  ∀ (k : ℕ) (window : List (SchedulerCall J)),
    (window.countP SchedulerCall.isDequeue : ℤ) = k * weights.lapLength →
    (∀ e ∈ weights.entries, k * weights.share e.2 ≤ (queued s e.1).length) →
    ∀ e ∈ weights.entries,
      ((dequeued (S.dialogue s window)).countP fun job => decide (tenantId job = e.1) : ℤ) =
        k * weights.share e.2

/-- A tenant with a job gets one of the next dequeues. -/
def NoStarvation : Prop :=
  ∀ e ∈ weights.entries, queued s e.1 ≠ [] → ∀ window : List (SchedulerCall J),
    (window.countP SchedulerCall.isDequeue : ℤ) = weights.lapLength - weights.share e.2 + 1 →
    ∃ job ∈ dequeued (S.dialogue s window), tenantId job = e.1

/-- The job at position `i` is the one that `i` jobs of its tenant are returned
before, and its turn comes within `i + 1` longest waits. -/
def PositionBound : Prop :=
  ∀ e ∈ weights.entries, ∀ (i : ℕ) (job : J), (queued s e.1)[i]? = some job →
    ∀ window : List (SchedulerCall J),
      (window.countP SchedulerCall.isDequeue : ℤ) =
        (i + 1) * (weights.lapLength - weights.share e.2 + 1) →
      ((dequeued (S.dialogue s window)).filter fun job => decide (tenantId job = e.1))[i]? =
        some job

end Statements

/-! ## Policies that take turns in the weight cycle -/

namespace TurnPolicy

variable {σ J R : Type} {P : TurnPolicy σ J R} {queued : σ → String → List J}
  {weights : WeightMap} {s : σ}

/-- The line of a state: the cycle from some position on, and the queues. -/
structure InCycle (P : TurnPolicy σ J R) (queued : σ → String → List J) (weights : WeightMap)
    (s : σ) : Prop where
  inv : P.Inv s
  valid : weights.Valid
  lap : (P.line s).lap.Perm (buildWeightCycle weights)
  backlog : ∀ t, (P.line s).backlog t = (queued s t).length

theorem InCycle.count (h : InCycle P queued weights s) {e : String × ℤ} (he : e ∈ weights.entries) :
    ((P.line s).lap.count e.1 : ℤ) = weights.share e.2 := by
  rw [h.lap.count_eq]
  exact WeightMap.count_buildWeightCycle h.valid he

theorem InCycle.length (h : InCycle P queued weights s) :
    ((P.line s).lap.length : ℤ) = weights.lapLength := by
  rw [h.lap.length_eq]
  exact WeightMap.length_buildWeightCycle h.valid

theorem InCycle.mem (h : InCycle P queued weights s) {t : String} :
    t ∈ (P.line s).lap ↔ t ∈ weights.tenants := by
  rw [h.lap.mem_iff]
  exact WeightMap.mem_buildWeightCycle_iff h.valid

theorem InCycle.sharesExact (h : InCycle P queued weights s) :
    SharesExact P.service P.tenantId queued weights s := by
  intro k window hn henough e he
  have hlap : (P.line s).lap ≠ [] := by
    apply List.ne_nil_of_mem
    exact h.mem.mpr (List.mem_map_of_mem he)
  have hlaps : window.countP SchedulerCall.isDequeue = k * (P.line s).lap.length := by
    rw [← h.length] at hn
    exact_mod_cast hn
  have hbacklog : ∀ t ∈ (P.line s).lap, k * (P.line s).lap.count t ≤ (P.line s).backlog t := by
    intro t ht
    obtain ⟨d, hd, rfl⟩ := List.mem_map.mp (h.mem.mp ht)
    have hd' := henough d hd
    rw [← h.count hd] at hd'
    rw [h.backlog]
    exact_mod_cast hd'
  rw [P.countP_dequeued_eq window h.inv hlap hlaps hbacklog e.1, Nat.cast_mul, h.count he]

/-- The longest wait of a tenant. -/
theorem InCycle.wait (h : InCycle P queued weights s) {e : String × ℤ} (he : e ∈ weights.entries) :
    (((P.line s).lap.length - (P.line s).lap.count e.1 + 1 : ℕ) : ℤ) =
      weights.lapLength - weights.share e.2 + 1 := by
  rw [Nat.cast_add, Nat.cast_sub List.count_le_length, h.count he, h.length]
  rfl

theorem InCycle.lt_countP (h : InCycle P queued weights s) {e : String × ℤ}
    (he : e ∈ weights.entries) {i : ℕ} (hi : i < (queued s e.1).length)
    {window : List (SchedulerCall J)}
    (hn : (window.countP SchedulerCall.isDequeue : ℤ) =
      (i + 1) * (weights.lapLength - weights.share e.2 + 1)) :
    i < (dequeued (P.service.dialogue s window)).countP
      fun job => decide (P.tenantId job = e.1) := by
  apply P.lt_countP_dequeued window h.inv
  · rw [h.backlog]
    exact hi
  · exact h.mem.mpr (List.mem_map_of_mem he)
  · rw [← h.wait he] at hn
    exact_mod_cast hn.ge

theorem InCycle.noStarvation (h : InCycle P queued weights s) :
    NoStarvation P.service P.tenantId queued weights s := by
  intro e he hne window hn
  have hpos : 0 < (queued s e.1).length := List.length_pos_iff.mpr hne
  have hcount := h.lt_countP he hpos (by rw [hn, Nat.cast_zero, zero_add, one_mul])
  obtain ⟨job, hjob, htenant⟩ := List.countP_pos_iff.mp hcount
  exact ⟨job, hjob, of_decide_eq_true htenant⟩

end TurnPolicy

/-! ## The two schedulers -/

section Schedulers

variable {repr : String → String} {weights : WeightMap}

namespace SchedulerWeightedRr.WeightedRoundRobinScheduler

variable {s s₀ : WeightedRoundRobinScheduler}

theorem inCycle (hs : Inv weights s) :
    (policy repr weights).InCycle (fun s => s.queues.queue) weights s where
  inv := hs
  valid := hs.valid
  lap := hs.slots ▸ s.cycle.lap_perm
  backlog _ := rfl

theorem inv_after (h : init repr weights = .ok s₀) (cs : List (SchedulerCall Job)) :
    Inv weights ((service repr).after s₀ cs) := by
  apply Service.after_invariant (P := Inv weights) _ (inv_init h)
  intro s c hs
  exact inv_call repr hs c

variable (repr) in
/-- One call: what comes out was in front, and what comes in goes to the back. -/
theorem fifo_call (hs : Inv weights s) (t : String) (c : SchedulerCall Job) :
    ∃ added,
      (dequeued [(c, (s.call repr c).2)]).filter (fun job => decide (job.tenantId = t)) ++
        (s.call repr c).1.queues.queue t = s.queues.queue t ++ added := by
  cases c with
  | enqueue job =>
      rw [call, enqueue]
      by_cases hknown : job.tenantId ∈ s.queues.tenants
      · rw [if_neg (not_not.mpr hknown)]
        by_cases ht : t = job.tenantId
        · subst ht
          refine ⟨[job], ?_⟩
          rw [TenantQueues.queue_set_self]
          rfl
        · refine ⟨[], ?_⟩
          rw [TenantQueues.queue_set_of_ne _ ht, List.append_nil]
          rfl
      · rw [if_pos hknown]
        exact ⟨[], (List.append_nil _).symm⟩
  | dequeue =>
      refine ⟨[], ?_⟩
      rcases dequeue_spec hs with ⟨-, h, -⟩ | ⟨-, u, job, rest, cycle, hqueue, -, -, -, h⟩
      · rw [call, h, List.append_nil]
        rfl
      · have htenant : job.tenantId = u := hs.own u job (hqueue ▸ List.mem_cons_self)
        have hout : dequeued [(.dequeue, (.job (some job) : SchedulerReply Job Unit))] = [job] := rfl
        rw [call, h, hout, List.append_nil]
        by_cases ht : t = u
        · subst ht
          rw [TenantQueues.queue_set_self, hqueue, List.filter_cons_of_pos (by simp [htenant])]
          rfl
        · rw [TenantQueues.queue_set_of_ne _ ht,
            List.filter_cons_of_neg (by simp [htenant, Ne.symm ht])]
          rfl
  | peek => exact ⟨[], (List.append_nil _).symm⟩
  | size => exact ⟨[], (List.append_nil _).symm⟩

variable (repr) in
/-- **First in, first out** within a tenant, over any sequence of calls. -/
theorem fifo (hs : Inv weights s) (t : String) (cs : List (SchedulerCall Job)) :
    ∃ added,
      (dequeued ((service repr).dialogue s cs)).filter (fun job => decide (job.tenantId = t)) ++
        ((service repr).after s cs).queues.queue t = s.queues.queue t ++ added := by
  induction cs generalizing s with
  | nil => exact ⟨[], by simp [dequeued]⟩
  | cons c cs ih =>
      obtain ⟨added, hadded⟩ := fifo_call repr hs t c
      obtain ⟨later, hlater⟩ := ih (inv_call repr hs c)
      refine ⟨added ++ later, ?_⟩
      rw [Service.dialogue, Service.after, ← List.singleton_append, dequeued_append,
        List.filter_append, List.append_assoc, ← List.append_assoc (s.queues.queue t), ← hadded,
        List.append_assoc]
      exact congrArg (_ ++ ·) hlater

theorem positionBound (hs : Inv weights s) :
    PositionBound (service repr) Job.tenantId (fun s => s.queues.queue) weights s := by
  intro e he i job hjob window hn
  have hi : i < (s.queues.queue e.1).length := (List.getElem?_eq_some_iff.mp hjob).1
  have hcycle : (policy repr weights).InCycle (fun s => s.queues.queue) weights s := inCycle hs
  have hcount := hcycle.lt_countP he hi hn
  obtain ⟨added, hfifo⟩ := fifo repr hs e.1 window
  rw [List.countP_eq_length_filter] at hcount
  calc ((dequeued ((service repr).dialogue s window)).filter _)[i]?
      = (_ ++ ((service repr).after s window).queues.queue e.1)[i]? :=
        (List.getElem?_append_left hcount).symm
    _ = (s.queues.queue e.1 ++ added)[i]? := congrArg (·[i]?) hfifo
    _ = some job := by rw [List.getElem?_append_left hi, hjob]

end SchedulerWeightedRr.WeightedRoundRobinScheduler

namespace SchedulerComposed.ComposedScheduler

variable {capacity : ℤ} {s s₀ : ComposedScheduler}

theorem inCycle (hs : Inv weights s) :
    (policy repr weights).InCycle (fun s => s.queues.queue) weights s where
  inv := hs
  valid := hs.queues.valid
  lap := hs.queues.slots ▸ s.cycle.lap_perm
  backlog _ := rfl

theorem inv_after (h : init repr capacity weights = .ok s₀) (cs : List (SchedulerCall Job)) :
    Inv weights ((service repr).after s₀ cs) := by
  apply Service.after_invariant (P := Inv weights) _ (inv_init h).1
  intro s c hs
  exact inv_call repr hs c

end SchedulerComposed.ComposedScheduler

open SchedulerWeightedRr (WeightedRoundRobinScheduler)
open SchedulerComposed (ComposedScheduler)

/-- **Weighted fairness is exact under backlog**, in every state either scheduler
can reach. -/
theorem shares_exact (repr : String → String) (weights : WeightMap) :
    (∀ s₀, WeightedRoundRobinScheduler.init repr weights = .ok s₀ → ∀ before,
      SharesExact (WeightedRoundRobinScheduler.service repr) SchedulerWeightedRr.Job.tenantId
        (fun s => s.queues.queue) weights
        ((WeightedRoundRobinScheduler.service repr).after s₀ before)) ∧
    (∀ capacity s₀, ComposedScheduler.init repr capacity weights = .ok s₀ → ∀ before,
      SharesExact (ComposedScheduler.service repr) SchedulerComposed.Job.tenantId
        (fun s => s.queues.queue) weights
        ((ComposedScheduler.service repr).after s₀ before)) := by
  constructor
  · intro s₀ hinit before
    have hs := WeightedRoundRobinScheduler.inv_after hinit before
    exact (WeightedRoundRobinScheduler.inCycle hs).sharesExact
  · intro capacity s₀ hinit before
    have hs := ComposedScheduler.inv_after hinit before
    exact (ComposedScheduler.inCycle hs).sharesExact

/-- Four jobs, and a dequeue that moves the pointer into the lap. -/
def TwoToOne.backlog : List (SchedulerCall SchedulerComposed.Job) :=
  [.enqueue ⟨"a1", "tenant-a", 1, 0⟩, .enqueue ⟨"a2", "tenant-a", 9, 1⟩,
    .enqueue ⟨"a3", "tenant-a", 5, 2⟩, .enqueue ⟨"b1", "tenant-b", 1, 3⟩, .dequeue]

/-- One lap, while another job comes. -/
def TwoToOne.lap : List (SchedulerCall SchedulerComposed.Job) :=
  [.dequeue, .peek, .dequeue, .enqueue ⟨"b2", "tenant-b", 1, 4⟩, .dequeue]

theorem shares_exact_twoToOne :
    ∃ s₀, ComposedScheduler.init (fun t => t) 4 .twoToOne = .ok s₀ ∧
      ((dequeued ((ComposedScheduler.service fun t => t).dialogue
          ((ComposedScheduler.service fun t => t).after s₀ TwoToOne.backlog) TwoToOne.lap)).countP fun job =>
            decide (job.tenantId = "tenant-a")) = 2 ∧
      ((dequeued ((ComposedScheduler.service fun t => t).dialogue
          ((ComposedScheduler.service fun t => t).after s₀ TwoToOne.backlog) TwoToOne.lap)).countP fun job =>
            decide (job.tenantId = "tenant-b")) = 1 := by
  have hinit := ComposedScheduler.init_eq_ok
    (show ComposedScheduler.initError (fun t => t) 4 .twoToOne = none by decide +kernel)
  have hshares := (shares_exact (fun t => t) .twoToOne).2 4 _ hinit TwoToOne.backlog 1
    TwoToOne.lap
    (by decide +kernel) (by decide +kernel)
  have ha := hshares ("tenant-a", 2) (by decide)
  have hb := hshares ("tenant-b", 1) (by decide)
  rw [show (WeightMap.twoToOne.share 2) = 2 by decide +kernel] at ha
  rw [show (WeightMap.twoToOne.share 1) = 1 by decide +kernel] at hb
  exact ⟨_, hinit, by exact_mod_cast ha, by exact_mod_cast hb⟩

/-- **No tenant starves**, in every state either scheduler can reach. -/
theorem no_starvation (repr : String → String) (weights : WeightMap) :
    (∀ s₀, WeightedRoundRobinScheduler.init repr weights = .ok s₀ → ∀ before,
      NoStarvation (WeightedRoundRobinScheduler.service repr) SchedulerWeightedRr.Job.tenantId
          (fun s => s.queues.queue) weights
          ((WeightedRoundRobinScheduler.service repr).after s₀ before) ∧
        PositionBound (WeightedRoundRobinScheduler.service repr) SchedulerWeightedRr.Job.tenantId
          (fun s => s.queues.queue) weights
          ((WeightedRoundRobinScheduler.service repr).after s₀ before)) ∧
    (∀ capacity s₀, ComposedScheduler.init repr capacity weights = .ok s₀ → ∀ before,
      NoStarvation (ComposedScheduler.service repr) SchedulerComposed.Job.tenantId
        (fun s => s.queues.queue) weights
        ((ComposedScheduler.service repr).after s₀ before)) := by
  constructor
  · intro s₀ hinit before
    have hs := WeightedRoundRobinScheduler.inv_after hinit before
    exact ⟨(WeightedRoundRobinScheduler.inCycle hs).noStarvation,
      WeightedRoundRobinScheduler.positionBound hs⟩
  · intro capacity s₀ hinit before
    have hs := ComposedScheduler.inv_after hinit before
    exact (ComposedScheduler.inCycle hs).noStarvation

/-- The tenant of the smaller weight waits for its job while jobs of the other one come. -/
theorem no_starvation_twoToOne :
    ∃ s₀, WeightedRoundRobinScheduler.init (fun t => t) .twoToOne = .ok s₀ ∧
      (∃ job ∈ dequeued ((WeightedRoundRobinScheduler.service fun t => t).dialogue
          ((WeightedRoundRobinScheduler.service fun t => t).after s₀
            [.enqueue ⟨"a1", "tenant-a", 0⟩, .enqueue ⟨"a2", "tenant-a", 1⟩,
              .enqueue ⟨"b1", "tenant-b", 2⟩])
          [.dequeue, .enqueue ⟨"a3", "tenant-a", 3⟩, .dequeue, .dequeue]),
        job.tenantId = "tenant-b") ∧
      ((dequeued ((WeightedRoundRobinScheduler.service fun t => t).dialogue
          ((WeightedRoundRobinScheduler.service fun t => t).after s₀
            [.enqueue ⟨"a1", "tenant-a", 0⟩, .enqueue ⟨"a2", "tenant-a", 1⟩,
              .enqueue ⟨"b1", "tenant-b", 2⟩])
          [.dequeue, .dequeue, .dequeue, .dequeue])).filter fun job =>
            decide (job.tenantId = "tenant-a"))[1]? = some ⟨"a2", "tenant-a", 1⟩ := by
  have hinit := WeightedRoundRobinScheduler.init_eq_ok
    (show WeightedRoundRobinScheduler.initError (fun t => t) .twoToOne = none by decide +kernel)
  obtain ⟨hturn, hposition⟩ := (no_starvation (fun t => t) .twoToOne).1 _ hinit
    [.enqueue ⟨"a1", "tenant-a", 0⟩, .enqueue ⟨"a2", "tenant-a", 1⟩,
      .enqueue ⟨"b1", "tenant-b", 2⟩]
  exact ⟨_, hinit,
    hturn ("tenant-b", 1) (by decide) (by decide +kernel) _ (by decide +kernel),
    hposition ("tenant-a", 2) (by decide) 1 _ (by decide +kernel) _ (by decide +kernel)⟩

end Schedulers

end KernelQ.ControlPlane
