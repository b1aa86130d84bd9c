import KernelQ.ControlPlane.SchedulerConservation
import KernelQ.ControlPlane.SchedulerRefinement

/-!
# First in, first out

`scheduler_fifo.py` and `bounded_queue.py`. Each has a `Job` of its own, with the same two
fields. The bounded queue is the unbounded one with an admission check in front
(`bounded_is_fifo`), and it is what the composed scheduler comes down to with one tenant whose
jobs come in order (`composed_is_bounded`).
-/

namespace KernelQ.ControlPlane.SchedulerFifo

open KernelQ.Foundation
open SchedulerComposed (EnqueueStatus EnqueueResult ComposedScheduler)

structure Job where
  jobId : String
  createdAt : ℤ
  deriving DecidableEq

structure FIFOScheduler where
  queue : List Job

namespace FIFOScheduler

def empty : FIFOScheduler := ⟨[]⟩

def enqueue (s : FIFOScheduler) (job : Job) : FIFOScheduler := ⟨s.queue ++ [job]⟩

def dequeue (s : FIFOScheduler) : Option Job × FIFOScheduler :=
  match s.queue with
  | [] => (none, s)
  | job :: rest => (some job, ⟨rest⟩)

def size (s : FIFOScheduler) : ℕ := s.queue.length

def peek (s : FIFOScheduler) : Option Job := s.queue.head?

def call (s : FIFOScheduler) : SchedulerCall Job → FIFOScheduler × SchedulerReply Job Unit
  | .enqueue job => (s.enqueue job, .enqueued ())
  | .dequeue => (s.dequeue.2, .job s.dequeue.1)
  | .peek => (s, .job s.peek)
  | .size => (s, .size s.size)

def service : Service FIFOScheduler (SchedulerCall Job) (SchedulerReply Job Unit) := ⟨call⟩

end FIFOScheduler

/-! ## The bounded queue -/

structure BoundedQueue where
  capacity : ℤ
  items : List Job
  positive : 0 < capacity
  bounded : items.length ≤ capacity

/-- What `stats` returns. -/
structure QueueStats where
  capacity : ℤ
  size : ℕ
  remainingCapacity : ℤ
  isFull : Bool
  deriving DecidableEq

namespace BoundedQueue

def init (capacity : ℤ) : Except PyException BoundedQueue :=
  if h : capacity ≤ 0 then
    .error (valueError ("capacity must be positive, got " ++ (PyInt.int capacity).format))
  else .ok ⟨capacity, [], not_le.mp h, (not_le.mp h).le⟩

def enqueue (q : BoundedQueue) (job : Job) : EnqueueResult × BoundedQueue :=
  if strip job.jobId = "" then (⟨.rejectedInvalid, "invalid job"⟩, q)
  else if h : q.capacity ≤ q.items.length then (⟨.rejectedFull, "queue is full"⟩, q)
  else
    (⟨.accepted, "accepted"⟩,
      { q with
        items := q.items ++ [job]
        bounded := by
          rw [List.length_append, List.length_singleton]
          exact not_le.mp h })

def dequeue (q : BoundedQueue) : Option Job × BoundedQueue :=
  match h : q.items with
  | [] => (none, q)
  | job :: rest =>
      (some job,
        { q with
          items := rest
          bounded := by
            have hle := q.bounded
            rw [h, List.length_cons] at hle
            omega })

def peek (q : BoundedQueue) : Option Job := q.items.head?

def size (q : BoundedQueue) : ℕ := q.items.length

def isFull (q : BoundedQueue) : Bool := decide (q.capacity ≤ q.items.length)

def remainingCapacity (q : BoundedQueue) : ℤ := q.capacity - q.items.length

def stats (q : BoundedQueue) : QueueStats :=
  ⟨q.capacity, q.size, q.remainingCapacity, q.isFull⟩

def call (q : BoundedQueue) : SchedulerCall Job → BoundedQueue × SchedulerReply Job EnqueueResult
  | .enqueue job => ((q.enqueue job).2, .enqueued (q.enqueue job).1)
  | .dequeue => (q.dequeue.2, .job q.dequeue.1)
  | .peek => (q, .job q.peek)
  | .size => (q, .size q.size)

def service : Service BoundedQueue (SchedulerCall Job) (SchedulerReply Job EnqueueResult) := ⟨call⟩

/-! ## Specifications -/

variable {q : BoundedQueue}

/-- **An enqueue** changes nothing, unless the job is accepted. -/
theorem enqueue_spec (q : BoundedQueue) (job : Job) :
    (strip job.jobId = "" ∧ (q.enqueue job).1.status = .rejectedInvalid ∧
        (q.enqueue job).2 = q) ∨
      (strip job.jobId ≠ "" ∧ q.capacity ≤ q.items.length ∧
        (q.enqueue job).1.status = .rejectedFull ∧ (q.enqueue job).2 = q) ∨
      (strip job.jobId ≠ "" ∧ q.items.length < q.capacity ∧
        (q.enqueue job).1.status = .accepted ∧
        (q.enqueue job).2.items = q.items ++ [job] ∧
        (q.enqueue job).2.capacity = q.capacity) := by
  by_cases hjob : strip job.jobId = ""
  · refine Or.inl ⟨hjob, ?_⟩
    rw [enqueue, if_pos hjob]
    exact ⟨rfl, rfl⟩
  by_cases hfull : q.capacity ≤ q.items.length
  · refine Or.inr (Or.inl ⟨hjob, hfull, ?_⟩)
    rw [enqueue, if_neg hjob, dif_pos hfull]
    exact ⟨rfl, rfl⟩
  · refine Or.inr (Or.inr ⟨hjob, not_le.mp hfull, ?_⟩)
    rw [enqueue, if_neg hjob, dif_neg hfull]
    exact ⟨rfl, rfl, rfl⟩

/-- **A dequeue** takes the first item, if there is one. -/
theorem dequeue_spec (q : BoundedQueue) :
    (q.items = [] ∧ q.dequeue = (none, q)) ∨
      ∃ job rest, q.items = job :: rest ∧ q.dequeue.1 = some job ∧
        q.dequeue.2.items = rest ∧ q.dequeue.2.capacity = q.capacity := by
  rw [dequeue]
  split
  · rename_i hnil
    exact Or.inl ⟨hnil, rfl⟩
  · rename_i job rest hcons
    exact Or.inr ⟨job, rest, hcons, rfl, rfl, rfl⟩

theorem capacity_call (q : BoundedQueue) (c : SchedulerCall Job) :
    (q.call c).1.capacity = q.capacity := by
  cases c with
  | enqueue job =>
      rw [call]
      rcases q.enqueue_spec job with ⟨-, -, h⟩ | ⟨-, -, -, h⟩ | ⟨-, -, -, -, h⟩
      · rw [h]
      · rw [h]
      · exact h
  | dequeue =>
      rw [call]
      rcases q.dequeue_spec with ⟨-, h⟩ | ⟨job, rest, -, -, -, h⟩
      · rw [h]
      · exact h
  | peek => rfl
  | size => rfl

theorem isFull_iff (q : BoundedQueue) : q.isFull = true ↔ q.remainingCapacity = 0 := by
  have hbounded := q.bounded
  rw [isFull, decide_eq_true_iff, remainingCapacity]
  omega

theorem remainingCapacity_nonneg (q : BoundedQueue) : 0 ≤ q.remainingCapacity :=
  sub_nonneg.mpr q.bounded

end BoundedQueue

/-! ## Runs -/

/-- The jobs that `enqueue` has accepted, in order. -/
def accepted (d : Dialogue Job EnqueueResult) : List Job :=
  d.filterMap fun
    | (.enqueue job, .enqueued result) => if result.status = .accepted then some job else none
    | _ => none

theorem accepted_append (d d' : Dialogue Job EnqueueResult) :
    accepted (d ++ d') = accepted d ++ accepted d' :=
  List.filterMap_append

/-- A job was not taken. -/
def turnedAway : SchedulerCall Job × SchedulerReply Job EnqueueResult → Bool
  | (.enqueue _, .enqueued result) => decide (result.status ≠ .accepted)
  | _ => false

/-- What the unbounded queue answers. -/
def unboundedReply : SchedulerReply Job EnqueueResult → SchedulerReply Job Unit
  | .enqueued _ => .enqueued ()
  | .job job => .job job
  | .size n => .size n
  | .raised e => .raised e

/-- The calls that were not turned away. -/
def taken (d : Dialogue Job EnqueueResult) : Dialogue Job EnqueueResult :=
  d.filter fun e => !turnedAway e

/-- What `stats` tells of the calls that have led to it from `q₀`: what came in and has not left
is there, and the rest of the capacity is free. -/
structure Tells (q₀ : BoundedQueue) (d : Dialogue Job EnqueueResult) (stats : QueueStats) :
    Prop where
  capacity : stats.capacity = q₀.capacity
  size : (dequeued d).length + stats.size = q₀.items.length + (accepted d).length
  remaining : stats.size + stats.remainingCapacity = q₀.capacity
  bounded : 0 ≤ stats.remainingCapacity
  full : stats.isFull = true ↔ stats.remainingCapacity = 0

/-- What holds of a bounded queue and of the calls that have led to it from `q₀`. -/
structure Fifo (q₀ q : BoundedQueue) (d : Dialogue Job EnqueueResult) : Prop where
  capacity : q.capacity = q₀.capacity
  /-- First in, first out: what came in is what has left and what is still there. -/
  order : q₀.items ++ accepted d = dequeued d ++ q.items
  invalid : ∀ job, (q.enqueue job).1.status = .rejectedInvalid ↔ strip job.jobId = ""
  full : ∀ job, (q.enqueue job).1.status = .rejectedFull ↔
    strip job.jobId ≠ "" ∧ q.size = q₀.capacity
  stats : Tells q₀ d q.stats
  rejected : ∀ job later, (q.enqueue job).1.status ≠ .accepted →
    BoundedQueue.service.replies (q.enqueue job).2 later = BoundedQueue.service.replies q later
  /-- To the calls it has taken, the unbounded queue gives the same replies. -/
  unbounded : FIFOScheduler.service.replies ⟨q₀.items⟩ ((taken d).map Prod.fst) =
    (taken d).map fun e => unboundedReply e.2

namespace BoundedQueue

variable {q : BoundedQueue}

/-- One call: what was accepted joins the end, what was dequeued leaves the front. -/
theorem items_call (q : BoundedQueue) (c : SchedulerCall Job) :
    q.items ++ accepted [(c, (q.call c).2)] =
      dequeued [(c, (q.call c).2)] ++ (q.call c).1.items := by
  cases c with
  | enqueue job =>
      have hreply : accepted [(.enqueue job, .enqueued (q.enqueue job).1)] =
          if (q.enqueue job).1.status = .accepted then [job] else [] := by
        by_cases hstatus : (q.enqueue job).1.status = .accepted <;> simp [accepted, hstatus]
      rw [call, hreply]
      rcases q.enqueue_spec job with ⟨-, hstatus, h⟩ | ⟨-, -, hstatus, h⟩ | ⟨-, -, hstatus, h, -⟩
      · rw [hstatus, h, if_neg (by decide), List.append_nil]
        rfl
      · rw [hstatus, h, if_neg (by decide), List.append_nil]
        rfl
      · rw [hstatus, h, if_pos rfl]
        rfl
  | dequeue =>
      rw [call]
      rcases q.dequeue_spec with ⟨hnil, h⟩ | ⟨job, rest, hcons, h, hrest, -⟩
      · rw [h, hnil]
        rfl
      · rw [h, hrest, hcons]
        exact List.append_nil _
  | peek => exact List.append_nil _
  | size => exact List.append_nil _

theorem items_after (q : BoundedQueue) (cs : List (SchedulerCall Job)) :
    q.items ++ accepted (service.dialogue q cs) =
      dequeued (service.dialogue q cs) ++ (service.after q cs).items := by
  induction cs generalizing q with
  | nil => exact List.append_nil _
  | cons c cs ih =>
      calc q.items ++ accepted (service.dialogue q (c :: cs))
          = q.items ++ (accepted [(c, (q.call c).2)] ++
              accepted (service.dialogue (q.call c).1 cs)) :=
            congrArg (q.items ++ ·) (accepted_append [(c, (q.call c).2)] _)
        _ = dequeued [(c, (q.call c).2)] ++ ((q.call c).1.items ++
              accepted (service.dialogue (q.call c).1 cs)) := by
            rw [← List.append_assoc, items_call, List.append_assoc]
        _ = dequeued [(c, (q.call c).2)] ++ (dequeued (service.dialogue (q.call c).1 cs) ++
              (service.after (q.call c).1 cs).items) := by rw [ih]
        _ = dequeued (service.dialogue q (c :: cs)) ++ (service.after q (c :: cs)).items := by
            rw [← List.append_assoc, ← dequeued_append]
            rfl

/-- **Only the rejected calls make a difference** between the two queues. -/
theorem unbounded_call (q : BoundedQueue) (c : SchedulerCall Job) :
    (turnedAway (c, (q.call c).2) = true ∧ (q.call c).1 = q) ∨
      (turnedAway (c, (q.call c).2) = false ∧
        FIFOScheduler.call ⟨q.items⟩ c = (⟨(q.call c).1.items⟩, unboundedReply (q.call c).2)) := by
  cases c with
  | enqueue job =>
      rw [call, turnedAway]
      rcases q.enqueue_spec job with ⟨-, hstatus, h⟩ | ⟨-, -, hstatus, h⟩ | ⟨-, -, hstatus, h, -⟩
      · exact Or.inl ⟨by rw [hstatus]; rfl, h⟩
      · exact Or.inl ⟨by rw [hstatus]; rfl, h⟩
      · refine Or.inr ⟨by rw [hstatus]; rfl, ?_⟩
        rw [h]
        rfl
  | dequeue =>
      refine Or.inr ⟨rfl, ?_⟩
      rw [call, FIFOScheduler.call, FIFOScheduler.dequeue]
      rcases q.dequeue_spec with ⟨hnil, h⟩ | ⟨job, rest, hcons, h, hrest, -⟩
      · rw [h, hnil]
        rfl
      · rw [h, hrest, hcons]
        rfl
  | peek => exact Or.inr ⟨rfl, rfl⟩
  | size => exact Or.inr ⟨rfl, rfl⟩

theorem unbounded_after (q : BoundedQueue) (cs : List (SchedulerCall Job)) :
    FIFOScheduler.service.replies ⟨q.items⟩
        ((taken (service.dialogue q cs)).map Prod.fst) =
      (taken (service.dialogue q cs)).map fun e => unboundedReply e.2 := by
  induction cs generalizing q with
  | nil => rfl
  | cons c cs ih =>
      rw [Service.dialogue]
      rcases q.unbounded_call c with ⟨haway, hsame⟩ | ⟨htaken, hcall⟩
      · have hskip : taken ((c, (q.call c).2) :: service.dialogue (q.call c).1 cs) =
            taken (service.dialogue q cs) := by
          rw [hsame]
          exact List.filter_cons_of_neg (by rw [haway]; decide)
        show FIFOScheduler.service.replies _ (List.map _ (taken (_ :: _))) = _
        rw [show service.call q c = q.call c from rfl, hskip]
        exact ih q
      · have hkeep : taken ((c, (q.call c).2) :: service.dialogue (q.call c).1 cs) =
            (c, (q.call c).2) :: taken (service.dialogue (q.call c).1 cs) :=
          List.filter_cons_of_pos (by rw [htaken]; rfl)
        rw [show service.call q c = q.call c from rfl, hkeep, List.map_cons, List.map_cons, ← ih]
        show (FIFOScheduler.call _ c).2 ::
          FIFOScheduler.service.replies (FIFOScheduler.call _ c).1 _ = _
        rw [hcall]

theorem full_iff (q : BoundedQueue) (job : Job) :
    (q.enqueue job).1.status = .rejectedFull ↔ strip job.jobId ≠ "" ∧ q.size = q.capacity := by
  have hbounded := q.bounded
  rcases q.enqueue_spec job with ⟨hid, h, -⟩ | ⟨hid, hfull, h, -⟩ | ⟨hid, hroom, h, -⟩
  · rw [h]
    exact iff_of_false (by decide) fun hnot => hnot.1 hid
  · rw [h]
    exact iff_of_true rfl ⟨hid, le_antisymm hbounded hfull⟩
  · rw [h]
    exact iff_of_false (by decide) fun hnot => hroom.ne hnot.2

theorem invalid_iff (q : BoundedQueue) (job : Job) :
    (q.enqueue job).1.status = .rejectedInvalid ↔ strip job.jobId = "" := by
  rcases q.enqueue_spec job with ⟨hid, h, -⟩ | ⟨hid, -, h, -⟩ | ⟨hid, -, h, -⟩
  · exact iff_of_true h hid
  · rw [h]
    exact iff_of_false (by decide) hid
  · rw [h]
    exact iff_of_false (by decide) hid

/-- **The bounded queue is first in, first out**, and its bound is all that sets it apart from
the unbounded one. -/
theorem bounded_is_fifo (q₀ : BoundedQueue) (cs : List (SchedulerCall Job)) :
    Fifo q₀ (service.after q₀ cs) (service.dialogue q₀ cs) := by
  have hcapacity : (service.after q₀ cs).capacity = q₀.capacity :=
    Service.after_invariant (S := service) (P := fun q => q.capacity = q₀.capacity)
      (fun q c h => (q.capacity_call c).trans h) rfl cs
  have horder := q₀.items_after cs
  have htells : Tells q₀ (service.dialogue q₀ cs) (service.after q₀ cs).stats := by
    refine ⟨hcapacity, ?_, ?_, remainingCapacity_nonneg _, isFull_iff _⟩
    · have hlength := congrArg List.length horder
      rw [List.length_append, List.length_append] at hlength
      exact hlength.symm
    · rw [← hcapacity]
      exact add_sub_cancel _ _
  refine ⟨hcapacity, horder, invalid_iff _, ?_, htells, ?_, q₀.unbounded_after cs⟩
  · intro job
    rw [full_iff, hcapacity]
  · intro job later h
    rcases (service.after q₀ cs).enqueue_spec job with ⟨-, -, hsame⟩ | ⟨-, -, -, hsame⟩ |
      ⟨-, -, haccepted, -⟩
    · rw [hsame]
    · rw [hsame]
    · exact absurd haccepted h

end BoundedQueue

/-- A full queue turns a job away, and has room for it after a dequeue. -/
theorem bounded_is_fifo_refilled :
    ∃ q₀, BoundedQueue.init 1 = .ok q₀ ∧
      Fifo q₀
        (BoundedQueue.service.after q₀ [.enqueue ⟨"a", 0⟩, .enqueue ⟨"b", 1⟩, .dequeue,
          .enqueue ⟨"b", 1⟩])
        (BoundedQueue.service.dialogue q₀ [.enqueue ⟨"a", 0⟩, .enqueue ⟨"b", 1⟩, .dequeue,
          .enqueue ⟨"b", 1⟩]) :=
  ⟨⟨1, [], Int.one_pos, Int.one_pos.le⟩, rfl, BoundedQueue.bounded_is_fifo _ _⟩

/-! ## One tenant of the composed scheduler -/

/-- The job, for a scheduler that knows one tenant `t` and one priority `p`. -/
def Job.toComposed (t : String) (p : ℤ) (job : Job) : SchedulerComposed.Job :=
  ⟨job.jobId, t, p, job.createdAt⟩

def toComposed (t : String) (p : ℤ) : SchedulerCall Job → SchedulerCall SchedulerComposed.Job
  | .enqueue job => .enqueue (job.toComposed t p)
  | .dequeue => .dequeue
  | .peek => .peek
  | .size => .size

/-- The same job, the same size, or the same status; the texts differ. -/
def SameAnswer (t : String) (p : ℤ) :
    SchedulerReply Job EnqueueResult → SchedulerReply SchedulerComposed.Job EnqueueResult → Prop
  | .job job, .job job' => job' = job.map (Job.toComposed t p)
  | .size n, .size n' => n = n'
  | .enqueued result, .enqueued result' => result.status = result'.status
  | _, _ => False

/-- The order in which the composed scheduler ranks jobs of one priority. -/
def Before (a b : Job) : Prop :=
  a.createdAt < b.createdAt ∨ a.createdAt = b.createdAt ∧ a.jobId < b.jobId

instance : DecidableRel Before := fun _ _ => inferInstanceAs (Decidable (_ ∨ _ ∧ _))

/-- The only queue of the composed scheduler holds the items of the bounded one. -/
structure Mirrors (weights : WeightMap) (t : String) (p : ℤ) (q : BoundedQueue)
    (s : ComposedScheduler) : Prop where
  inv : s.Inv weights
  capacity : s.capacity = q.capacity
  queue : s.queues.queue t = q.items.map (Job.toComposed t p)

namespace Mirrors

variable {repr : String → String} {weights : WeightMap} {t : String} {p : ℤ} {q : BoundedQueue}
  {s : ComposedScheduler}

theorem size (hone : weights.tenants = [t]) (h : Mirrors weights t p q s) :
    s.queues.size = q.items.length := by
  rw [TenantQueues.size, h.inv.queues.tenants, hone, List.map_singleton, List.sum_singleton,
    h.queue, List.length_map]

/-- **An enqueue** has the same outcome on both sides. -/
theorem enqueue (hone : weights.tenants = [t]) (hname : strip t ≠ "")
    (h : Mirrors weights t p q s) (job : Job) :
    (q.enqueue job).1.status = (s.enqueue repr (job.toComposed t p)).1.status ∧
      Mirrors weights t p (q.enqueue job).2 (s.enqueue repr (job.toComposed t p)).2 := by
  have hsize := h.size hone
  have hcapacity := h.capacity
  have hinv := ComposedScheduler.inv_call repr h.inv (.enqueue (job.toComposed t p))
  have hadmissible : s.Admissible (job.toComposed t p) ↔ strip job.jobId ≠ "" := by
    constructor
    · exact fun hjob => hjob.jobId
    · intro hjob
      refine ⟨hjob, hname, ?_⟩
      rw [h.inv.queues.tenants, hone]
      exact List.mem_singleton_self t
  rw [ComposedScheduler.call] at hinv
  rcases q.enqueue_spec job with ⟨hid, hstatus, hq⟩ | ⟨hid, hfull, hstatus, hq⟩ |
    ⟨hid, hroom, hstatus, hq, hqc⟩
  · rcases s.enqueue_spec repr (job.toComposed t p) with ⟨-, hstatus', hs⟩ | ⟨hjob, -⟩ | ⟨hjob, -⟩
    · rw [hstatus, hstatus', hq, hs]
      exact ⟨rfl, h⟩
    · exact absurd hid (hadmissible.mp hjob)
    · exact absurd hid (hadmissible.mp hjob)
  · rcases s.enqueue_spec repr (job.toComposed t p) with ⟨hjob, -⟩ | ⟨-, -, hstatus', hs⟩ |
      ⟨-, hroom, -⟩
    · exact absurd (hadmissible.mpr hid) hjob
    · rw [hstatus, hstatus', hq, hs]
      exact ⟨rfl, h⟩
    · omega
  · rcases s.enqueue_spec repr (job.toComposed t p) with ⟨hjob, -⟩ | ⟨-, hfull, -⟩ |
      ⟨-, -, hstatus', hs⟩
    · exact absurd (hadmissible.mpr hid) hjob
    · omega
    · rw [hs] at hinv ⊢
      refine ⟨hstatus.trans hstatus'.symm, hinv, hcapacity.trans hqc.symm, ?_⟩
      have hown : (job.toComposed t p).tenantId = t := rfl
      rw [hown, TenantQueues.queue_set_self, hq, h.queue, List.map_append]
      rfl

/-- **Jobs in order** leave both in that order. -/
theorem dequeue (hone : weights.tenants = [t]) (h : Mirrors weights t p q s)
    (hordered : q.items.Pairwise Before) :
    s.peek = .ok (q.peek.map (Job.toComposed t p)) ∧
      s.dequeue.1 = .ok (q.dequeue.1.map (Job.toComposed t p)) ∧
      Mirrors weights t p q.dequeue.2 s.dequeue.2 := by
  have hsize := h.size hone
  have hinv := ComposedScheduler.inv_call (fun u => u) h.inv .dequeue
  rw [ComposedScheduler.call] at hinv
  rcases s.dequeue_spec h.inv.queues with ⟨hzero, hdequeue, hpeek⟩ |
    ⟨hpos, u, index, best, cycle, hindex, hperm, -, hturn, hpeek, hdequeue⟩
  · rcases q.dequeue_spec with ⟨hnil, hq⟩ | ⟨job, rest, hcons, -⟩
    · rw [hdequeue, hq, hpeek, BoundedQueue.peek, hnil]
      exact ⟨rfl, rfl, h⟩
    · rw [hcons, List.length_cons] at hsize
      omega
  · rcases q.dequeue_spec with ⟨hnil, -⟩ | ⟨job, rest, hcons, hq, hrest, hqc⟩
    · rw [hnil, List.length_nil] at hsize
      omega
    · -- the turn is the only tenant's, and its best job is the first
      have hknown := ComposedScheduler.mem_tenants_of_turn h.inv.queues hturn
      rw [h.inv.queues.tenants, hone] at hknown
      obtain rfl := List.mem_singleton.mp hknown
      have hqueue : s.queues.queue u =
          job.toComposed u p :: rest.map (Job.toComposed u p) := by
        rw [h.queue, hcons, List.map_cons]
      have hranked : (q.items.map (Job.toComposed u p)).Pairwise SchedulerComposed.Ordered :=
        List.pairwise_map.mpr (hordered.imp fun hbefore _ => ⟨rfl, hbefore⟩)
      rw [← h.queue, hqueue] at hranked
      have hown := h.inv.queues.own u
      rw [hqueue] at hown
      rw [hqueue, SchedulerComposed.bestJobIndex_of_ordered hown hranked] at hindex
      cases hindex
      rw [hqueue, List.eraseIdx_cons_zero] at hperm hdequeue
      have hcancel : job.toComposed u p ::ₘ (rest.map (Job.toComposed u p) : Multiset _) =
          best ::ₘ (rest.map (Job.toComposed u p) : Multiset _) := Multiset.coe_eq_coe.mpr hperm
      obtain rfl := (Multiset.cons_inj_left _).mp hcancel
      rw [hdequeue] at hinv ⊢
      rw [hpeek, hq, BoundedQueue.peek, hcons]
      refine ⟨rfl, rfl, hinv, h.capacity.trans hqc.symm, ?_⟩
      rw [TenantQueues.queue_set_self, hrest]

variable (repr) in
/-- **One call**: the answers are the same, and the schedulers stay in step. -/
theorem call (hone : weights.tenants = [t]) (hname : strip t ≠ "") (h : Mirrors weights t p q s)
    (hordered : q.items.Pairwise Before) (c : SchedulerCall Job) :
    SameAnswer t p (q.call c).2 (s.call repr (toComposed t p c)).2 ∧
      Mirrors weights t p (q.call c).1 (s.call repr (toComposed t p c)).1 := by
  obtain ⟨hpeek, hdequeue, hmirrors⟩ := h.dequeue hone hordered
  cases c with
  | enqueue job =>
      obtain ⟨hstatus, henqueued⟩ := h.enqueue hone hname job
      exact ⟨hstatus, henqueued⟩
  | dequeue =>
      refine ⟨?_, hmirrors⟩
      rw [BoundedQueue.call, toComposed, ComposedScheduler.call, hdequeue]
      rfl
  | peek =>
      refine ⟨?_, h⟩
      rw [BoundedQueue.call, toComposed, ComposedScheduler.call, hpeek]
      rfl
  | size => exact ⟨(h.size hone).symm, h⟩

end Mirrors

/-- **With one tenant the composed scheduler is the bounded queue**, full or not, as long as the
accepted jobs come in order. -/
theorem composed_is_bounded {repr : String → String} {weights : WeightMap} {capacity : ℤ}
    {t : String} {s₀ : ComposedScheduler} {q₀ : BoundedQueue}
    (hinit : ComposedScheduler.init repr capacity weights = .ok s₀)
    (hinit' : BoundedQueue.init capacity = .ok q₀) (hone : weights.tenants = [t]) (p : ℤ)
    (cs : List (SchedulerCall Job))
    (hordered : (accepted (BoundedQueue.service.dialogue q₀ cs)).Pairwise Before) :
    List.Forall₂ (SameAnswer t p) (BoundedQueue.service.replies q₀ cs)
      ((ComposedScheduler.service repr).replies s₀ (cs.map (toComposed t p))) := by
  have hname : strip t ≠ "" := by
    obtain ⟨-, -, hnames, -⟩ := ComposedScheduler.eq_of_init hinit
    exact hnames t (hone ▸ List.mem_singleton_self t)
  have hstart : Mirrors weights t p q₀ s₀ ∧
      (q₀.items ++ accepted (BoundedQueue.service.dialogue q₀ cs)).Pairwise Before := by
    have hinv := (ComposedScheduler.inv_init hinit).1
    obtain ⟨hpos, -, -, _, rfl⟩ := ComposedScheduler.eq_of_init hinit
    rw [BoundedQueue.init, dif_neg (not_le.mpr hpos)] at hinit'
    cases hinit'
    exact ⟨⟨hinv, rfl, rfl⟩, hordered⟩
  apply Service.replies_congr
    (R := fun cs (q : BoundedQueue) s => Mirrors weights t p q s ∧
      (q.items ++ accepted (BoundedQueue.service.dialogue q cs)).Pairwise Before) _ hstart
  rintro c cs q s ⟨h, hall⟩
  have hitems : q.items.Pairwise Before := hall.sublist (List.sublist_append_left _ _)
  obtain ⟨hanswer, hmirrors⟩ := h.call repr hone hname hitems c
  refine ⟨hanswer, hmirrors, ?_⟩
  -- what the call takes out of the queue no longer counts
  have hsplit : q.items ++ accepted (BoundedQueue.service.dialogue q (c :: cs)) =
      dequeued [(c, (q.call c).2)] ++
        ((q.call c).1.items ++ accepted (BoundedQueue.service.dialogue (q.call c).1 cs)) := by
    rw [← List.append_assoc, ← q.items_call c, List.append_assoc, ← accepted_append]
    rfl
  rw [hsplit] at hall
  exact hall.sublist (List.sublist_append_right _ _)

/-- The weights of a single tenant. -/
def single : WeightMap := ⟨[("tenant-a", 3)], by decide⟩

theorem composed_is_bounded_refilled :
    ∃ s₀ q₀, ComposedScheduler.init (fun t => t) 1 single = .ok s₀ ∧
      BoundedQueue.init 1 = .ok q₀ ∧
      List.Forall₂ (SameAnswer "tenant-a" 5)
        (BoundedQueue.service.replies q₀
          [.enqueue ⟨"a", 0⟩, .enqueue ⟨"b", 1⟩, .peek, .dequeue, .enqueue ⟨"b", 1⟩, .size])
        ((ComposedScheduler.service fun t => t).replies s₀
          ([.enqueue ⟨"a", 0⟩, .enqueue ⟨"b", 1⟩, .peek, .dequeue, .enqueue ⟨"b", 1⟩,
            .size].map (toComposed "tenant-a" 5))) := by
  have hinit := ComposedScheduler.init_eq_ok
    (show ComposedScheduler.initError (fun t => t) 1 single = none by decide +kernel)
  exact ⟨_, ⟨1, [], Int.one_pos, Int.one_pos.le⟩, hinit, rfl,
    composed_is_bounded hinit rfl rfl 5 _ (by decide +kernel)⟩

end KernelQ.ControlPlane.SchedulerFifo
