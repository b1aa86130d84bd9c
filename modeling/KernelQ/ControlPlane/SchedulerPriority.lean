import KernelQ.ControlPlane.TenantQueues
import KernelQ.Foundation.BinaryHeap
import Mathlib.Data.Prod.Lex
import Mathlib.Data.String.Basic

/-!
# The priority scheduler

`scheduler_priority.py`: a heap of tuples, compared as Python compares tuples. Two tuples
that agree in the first three components would be told apart by their jobs, which cannot
be ordered; but a tuple is made from its job, so there are no such two (`tupleLt_eq`), and
the scheduler never raises.
-/

namespace KernelQ.ControlPlane.SchedulerPriority

open KernelQ.Foundation

structure Job where
  jobId : String
  priority : ℤ
  createdAt : ℤ
  deriving DecidableEq

/-! ## The order of the jobs -/

/-- What a job is ranked by. -/
def Job.rank (job : Job) : ℤ ×ₗ ℤ ×ₗ String :=
  toLex (-job.priority, toLex (job.createdAt, job.jobId))

theorem Job.rank_injective : Function.Injective Job.rank := by
  intro a b h
  obtain ⟨hpriority, h⟩ := Prod.ext_iff.mp (toLex.injective h)
  obtain ⟨hcreated, hid⟩ := Prod.ext_iff.mp (toLex.injective h)
  obtain ⟨jobId, priority, createdAt⟩ := a
  obtain ⟨jobId', priority', createdAt'⟩ := b
  simp_all

/-- The smaller job is the one that goes first. -/
instance : LinearOrder Job :=
  LinearOrder.lift' Job.rank Job.rank_injective

theorem Job.lt_iff {a b : Job} : a < b ↔ b.priority < a.priority ∨
    (a.priority = b.priority ∧ a.createdAt < b.createdAt) ∨
      (a.priority = b.priority ∧ a.createdAt = b.createdAt ∧ a.jobId < b.jobId) := by
  show a.rank < b.rank ↔ _
  rw [Job.rank, Job.rank, Prod.Lex.toLex_lt_toLex, Prod.Lex.toLex_lt_toLex, neg_lt_neg_iff, neg_inj,
    and_or_left]

/-! ## The tuples -/

abbrev HeapTuple := ℤ × ℤ × String × Job

def typeError (message : String) : PyException := ⟨"TypeError", message⟩

/-- `<` of tuples: it is for the first components that differ to decide. -/
def tupleLt (a b : HeapTuple) : Except PyException Bool :=
  if a.1 ≠ b.1 then .ok (a.1 < b.1)
  else if a.2.1 ≠ b.2.1 then .ok (a.2.1 < b.2.1)
  else if a.2.2.1 ≠ b.2.2.1 then .ok (a.2.2.1 < b.2.2.1)
  else if a.2.2.2 ≠ b.2.2.2 then
    .error (typeError "'<' not supported between instances of 'Job' and 'Job'")
  else .ok false

/-- `key` of `enqueue`. -/
def Job.tuple (job : Job) : HeapTuple :=
  (-job.priority, job.createdAt, job.jobId, job)

/-- **No tie is left for the jobs to break.** -/
theorem tupleLt_eq (a b : Job) : tupleLt a.tuple b.tuple = .ok (decide (a < b)) := by
  have hpriority : a.tuple.1 = b.tuple.1 ↔ a.priority = b.priority := neg_inj
  have hcreated : a.tuple.2.1 = b.tuple.2.1 ↔ a.createdAt = b.createdAt := Iff.rfl
  have hid : a.tuple.2.2.1 = b.tuple.2.2.1 ↔ a.jobId = b.jobId := Iff.rfl
  have hjob : a.tuple.2.2.2 = b.tuple.2.2.2 ↔ a = b := Iff.rfl
  have hless : a.tuple.1 < b.tuple.1 ↔ b.priority < a.priority := neg_lt_neg_iff
  simp only [tupleLt, ne_eq, hpriority, hcreated, hid, hjob, hless, Job.lt_iff]
  by_cases h₁ : a.priority = b.priority
  · by_cases h₂ : a.createdAt = b.createdAt
    · by_cases h₃ : a.jobId = b.jobId
      · -- equal keys are keys of equal jobs
        have heq : a = b := Job.rank_injective (by rw [Job.rank, Job.rank, h₁, h₂, h₃])
        simp [heq]
      · rw [if_neg (not_not.mpr h₁), if_neg (not_not.mpr h₂), if_pos h₃]
        simp [h₁, h₂, Job.tuple]
    · rw [if_neg (not_not.mpr h₁), if_pos h₂]
      simp [h₁, h₂, Job.tuple]
  · rw [if_pos h₁]
    simp [h₁]

/-- An entry of `_heap`: a tuple that `enqueue` has made. -/
structure Entry where
  tuple : HeapTuple
  made : tuple = tuple.2.2.2.tuple

namespace Entry

def of (job : Job) : Entry :=
  ⟨job.tuple, rfl⟩

def job (e : Entry) : Job :=
  e.tuple.2.2.2

def lt (a b : Entry) : Except PyException Bool :=
  tupleLt a.tuple b.tuple

theorem job_injective : Function.Injective job := by
  rintro ⟨a, ha⟩ ⟨b, hb⟩ h
  have hab : a = b := by rw [ha, hb]; exact congrArg Job.tuple h
  subst hab
  rfl

instance : LinearOrder Entry :=
  LinearOrder.lift' job job_injective

theorem compares_lt : BinaryHeap.Compares lt := by
  rintro ⟨a, ha⟩ ⟨b, hb⟩
  show tupleLt a b = .ok (decide (a.2.2.2 < b.2.2.2))
  rw [← tupleLt_eq, ← ha, ← hb]

end Entry

/-! ## The scheduler -/

structure PriorityScheduler where
  heap : Array Entry

namespace PriorityScheduler

open BinaryHeap

def empty : PriorityScheduler := ⟨#[]⟩

def enqueue (s : PriorityScheduler) (job : Job) : Except PyException PriorityScheduler := do
  let heap ← heappush Entry.lt s.heap (.of job)
  return ⟨heap⟩

def dequeue (s : PriorityScheduler) : Except PyException (Option Job × PriorityScheduler) :=
  if h : s.heap.size = 0 then .ok (none, s)
  else do
    let (e, heap) ← heappop Entry.lt s.heap (Nat.pos_of_ne_zero h)
    return (some e.job, ⟨heap⟩)

def peek (s : PriorityScheduler) : Option Job :=
  s.heap[0]?.map Entry.job

def size (s : PriorityScheduler) : ℕ :=
  s.heap.size

/-- A call that raises is taken to leave the scheduler as it was. -/
def call (s : PriorityScheduler) : SchedulerCall Job → PriorityScheduler × SchedulerReply Job Unit
  | .enqueue job =>
      match s.enqueue job with
      | .ok s' => (s', .enqueued ())
      | .error e => (s, .raised e)
  | .dequeue =>
      match s.dequeue with
      | .ok (job, s') => (s', .job job)
      | .error e => (s, .raised e)
  | .peek => (s, .job s.peek)
  | .size => (s, .size s.size)

def service : Service PriorityScheduler (SchedulerCall Job) (SchedulerReply Job Unit) :=
  ⟨call⟩

/-- The jobs that wait, in no order. -/
def jobs (s : PriorityScheduler) : List Job :=
  s.heap.toList.map Entry.job

/-! ## Specifications -/

variable {s : PriorityScheduler}

theorem enqueue_spec (hs : IsHeap s.heap) (job : Job) :
    ∃ s', s.enqueue job = .ok s' ∧ IsHeap s'.heap ∧ s'.jobs.Perm (job :: s.jobs) := by
  obtain ⟨heap', heq, hheap', hperm⟩ := heappush_spec Entry.compares_lt hs (.of job)
  refine ⟨⟨heap'⟩, ?_, hheap', hperm.map Entry.job⟩
  simp only [enqueue, heq, bind, Except.bind]
  rfl

/-- **A dequeue and a peek**: there is no job, or both find the first of them. -/
theorem dequeue_spec (hs : IsHeap s.heap) :
    s.jobs = [] ∧ s.dequeue = .ok (none, s) ∧ s.peek = none ∨
      ∃ job s', s.dequeue = .ok (some job, s') ∧ s.peek = some job ∧ IsHeap s'.heap ∧
        s.jobs.Perm (job :: s'.jobs) ∧ ∀ j ∈ s.jobs, job ≤ j := by
  by_cases hsize : s.heap.size = 0
  · left
    have hempty : s.heap = #[] := Array.size_eq_zero_iff.mp hsize
    refine ⟨?_, ?_, ?_⟩
    · rw [jobs, hempty]
      rfl
    · rw [dequeue, dif_pos hsize]
    · rw [peek, hempty]
      rfl
  · right
    have hpos := Nat.pos_of_ne_zero hsize
    obtain ⟨heap', heq, hheap', hperm⟩ := heappop_spec Entry.compares_lt hs hpos
    refine ⟨s.heap[0].job, ⟨heap'⟩, ?_, ?_, hheap', hperm.map Entry.job, ?_⟩
    · rw [dequeue, dif_neg hsize, heq]
      rfl
    · rw [peek, Array.getElem?_eq_getElem hpos]
      rfl
    · intro j hj
      obtain ⟨e, he, rfl⟩ := List.mem_map.mp hj
      obtain ⟨i, hi, rfl⟩ := Array.mem_iff_getElem.mp (Array.mem_toList_iff.mp he)
      exact hs.root_le hpos hi

/-- One call: the heap stays a heap, and nothing is raised. -/
theorem call_spec (hs : IsHeap s.heap) (c : SchedulerCall Job) :
    IsHeap (s.call c).1.heap ∧ ∀ e, (s.call c).2 ≠ .raised e := by
  cases c with
  | enqueue job =>
      obtain ⟨s', heq, hheap, -⟩ := s.enqueue_spec hs job
      rw [call, heq]
      exact ⟨hheap, nofun⟩
  | dequeue =>
      rcases s.dequeue_spec hs with ⟨-, heq, -⟩ | ⟨job, s', heq, -, hheap, -⟩
      · rw [call, heq]
        exact ⟨hs, nofun⟩
      · rw [call, heq]
        exact ⟨hheap, nofun⟩
  | peek => exact ⟨hs, nofun⟩
  | size => exact ⟨hs, nofun⟩

/-- **No tie makes it raise**, in any sequence of calls. -/
theorem not_raised (hs : IsHeap s.heap) (cs : List (SchedulerCall Job)) :
    ∀ reply ∈ service.replies s cs, ∀ e, reply ≠ .raised e := by
  induction cs generalizing s with
  | nil =>
      intro reply hreply
      cases hreply
  | cons c cs ih =>
      obtain ⟨hheap, hreply⟩ := call_spec hs c
      exact List.forall_mem_cons.mpr ⟨hreply, ih hheap⟩

theorem size_eq_length_jobs (s : PriorityScheduler) : s.size = s.jobs.length := by
  rw [jobs, List.length_map, Array.length_toList]
  rfl

end PriorityScheduler

end KernelQ.ControlPlane.SchedulerPriority
