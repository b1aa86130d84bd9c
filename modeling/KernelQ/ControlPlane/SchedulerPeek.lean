import KernelQ.ControlPlane.SchedulerFairness

/-!
# Looking at the next job

`peek` of both weighted schedulers walks the cycle with a pointer of its own. It finds
what the next `dequeue` returns (`dequeue_spec` of each scheduler), and as it writes
nothing, calls of it make no difference to any other call (`Service.repliesAround_eq`).
-/

namespace KernelQ.ControlPlane

open KernelQ.Foundation

section Statements

variable {σ J R : Type} (S : Service σ (SchedulerCall J) (SchedulerReply J R))

/-- `peek` returns what `dequeue` would return, which is `None` when the size is 0. -/
def PeekPredicts (s : σ) : Prop :=
  ∃ n job, (S.call s .size).2 = .size n ∧ (S.call s .peek).2 = .job job ∧
    (S.call s .dequeue).2 = .job job ∧ (job = none ↔ n = 0)

/-- Wherever calls of `peek` are put in (at every `none`), all other calls reply as they do
without them, and leave the same scheduler. -/
def PeekUnnoticed (s : σ) : Prop :=
  ∀ cs : List (Option (SchedulerCall J)),
    S.repliesAround .peek s cs = S.replies s cs.reduceOption ∧
      S.after s (cs.map fun c => c.getD .peek) = S.after s cs.reduceOption

end Statements

variable {repr : String → String} {weights : WeightMap}

namespace SchedulerWeightedRr.WeightedRoundRobinScheduler

variable {s : WeightedRoundRobinScheduler}

theorem peekPredicts (hs : Inv weights s) : PeekPredicts (service repr) s := by
  rcases dequeue_spec hs with ⟨hzero, hdequeue, hpeek⟩ |
    ⟨hpos, t, job, rest, cycle, -, -, -, hpeek, hdequeue⟩
  · refine ⟨0, none, congrArg SchedulerReply.size hzero, congrArg SchedulerReply.job hpeek, ?_,
      iff_of_true rfl rfl⟩
    show SchedulerReply.job s.dequeue.1 = _
    rw [hdequeue]
  · refine ⟨_, some job, rfl, congrArg SchedulerReply.job hpeek, ?_, ?_⟩
    · show SchedulerReply.job s.dequeue.1 = _
      rw [hdequeue]
    · exact iff_of_false (Option.some_ne_none job) hpos.ne'

end SchedulerWeightedRr.WeightedRoundRobinScheduler

namespace SchedulerComposed.ComposedScheduler

variable {s : ComposedScheduler}

theorem peekPredicts (hs : Inv weights s) : PeekPredicts (service repr) s := by
  rcases dequeue_spec hs.queues with ⟨hzero, hdequeue, hpeek⟩ |
    ⟨hpos, t, index, job, cycle, -, -, -, -, hpeek, hdequeue⟩
  · refine ⟨0, none, congrArg SchedulerReply.size hzero, congrArg replyOf hpeek, ?_,
      iff_of_true rfl rfl⟩
    show replyOf s.dequeue.1 = _
    rw [hdequeue]
    rfl
  · refine ⟨_, some job, rfl, congrArg replyOf hpeek, ?_, ?_⟩
    · show replyOf s.dequeue.1 = _
      rw [hdequeue]
      rfl
    · exact iff_of_false (Option.some_ne_none job) hpos.ne'

end SchedulerComposed.ComposedScheduler

open SchedulerWeightedRr (WeightedRoundRobinScheduler)
open SchedulerComposed (ComposedScheduler)

/-- **`peek` predicts `dequeue`, and changes nothing**, in every state either scheduler can
reach. -/
theorem peek_predicts_dequeue (repr : String → String) (weights : WeightMap) :
    (∀ s₀, WeightedRoundRobinScheduler.init repr weights = .ok s₀ → ∀ before,
      PeekPredicts (WeightedRoundRobinScheduler.service repr)
          ((WeightedRoundRobinScheduler.service repr).after s₀ before) ∧
        PeekUnnoticed (WeightedRoundRobinScheduler.service repr)
          ((WeightedRoundRobinScheduler.service repr).after s₀ before)) ∧
    (∀ capacity s₀, ComposedScheduler.init repr capacity weights = .ok s₀ → ∀ before,
      PeekPredicts (ComposedScheduler.service repr)
          ((ComposedScheduler.service repr).after s₀ before) ∧
        PeekUnnoticed (ComposedScheduler.service repr)
          ((ComposedScheduler.service repr).after s₀ before)) := by
  constructor
  · intro s₀ hinit before
    constructor
    · exact WeightedRoundRobinScheduler.peekPredicts
        (WeightedRoundRobinScheduler.inv_after hinit before)
    · exact Service.repliesAround_eq (fun _ => rfl) _
  · intro capacity s₀ hinit before
    constructor
    · exact ComposedScheduler.peekPredicts (ComposedScheduler.inv_after hinit before)
    · exact Service.repliesAround_eq (fun _ => rfl) _

/-- Looking at the next job all the time. -/
theorem peek_predicts_dequeue_twoToOne :
    ∃ s₀, ComposedScheduler.init (fun t => t) 4 .twoToOne = .ok s₀ ∧
      PeekPredicts (ComposedScheduler.service fun t => t)
        ((ComposedScheduler.service fun t => t).after s₀ TwoToOne.backlog) ∧
      (ComposedScheduler.service fun t => t).replies
          ((ComposedScheduler.service fun t => t).after s₀ TwoToOne.backlog) [.dequeue, .dequeue, .size] =
        (ComposedScheduler.service fun t => t).repliesAround .peek
          ((ComposedScheduler.service fun t => t).after s₀ TwoToOne.backlog)
          [none, some .dequeue, none, none, some .dequeue, none, some .size] := by
  have hinit := ComposedScheduler.init_eq_ok
    (show ComposedScheduler.initError (fun t => t) 4 .twoToOne = none by decide +kernel)
  obtain ⟨hpredicts, hunnoticed⟩ :=
    (peek_predicts_dequeue (fun t => t) .twoToOne).2 4 _ hinit TwoToOne.backlog
  exact ⟨_, hinit, hpredicts, (hunnoticed
    [none, some .dequeue, none, none, some .dequeue, none, some .size]).1.symm⟩

end KernelQ.ControlPlane
