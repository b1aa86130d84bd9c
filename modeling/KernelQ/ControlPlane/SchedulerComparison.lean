import KernelQ.ControlPlane.BoundedQueue
import KernelQ.ControlPlane.SchedulerMetrics
import KernelQ.ControlPlane.SchedulerTenantPriority
import KernelQ.Foundation.ServingOrder
import Mathlib.Algebra.BigOperators.Ring.Finset
import Mathlib.Tactic.FieldSimp

/-!
# Four schedulers on one workload

`compare_schedulers.py`, for any workload: each scheduler is filled and then emptied, with a
clock that ticks once for each dispatch. What all four report of the totals is the same, and a
function of the workload (`schedulers_agree`); they differ in who waits, and there the priority
scheduler is best for the jobs of high priority, at every threshold (`priority_waits_least`).
-/

namespace KernelQ.ControlPlane.SchedulerComparison

open KernelQ.Foundation
open SchedulerFifo (FIFOScheduler)
open SchedulerPriority (PriorityScheduler)
open SchedulerWeightedRr (WeightedRoundRobinScheduler)
open SchedulerComposed (ComposedScheduler EnqueueStatus SchedulerMetrics Job.toPriority
  Job.toWeightedRr dispatches waitTime Recording)

/-- It has the four fields of the composed scheduler's jobs. -/
abbrev WorkloadJob := SchedulerComposed.Job

/-- `_is_valid`. -/
def isValid (allowedTenants : List String) (job : WorkloadJob) : Bool :=
  decide (strip job.jobId ≠ "") && decide (strip job.tenantId ≠ "") &&
    allowedTenants.contains job.tenantId

/-- The dict that a run returns. -/
structure RunResult where
  averageQueueWaitTime : ℚ
  averageQueueWaitTimeByTenant : Tally String ℚ
  averageQueueWaitTimeByPriority : Tally ℤ ℚ
  dispatchCountByTenant : Tally String ℕ
  enqueueRejectedFullCount : ℕ
  enqueueRejectedInvalidCount : ℕ

def RunResult.of (metrics : SchedulerMetrics) : RunResult where
  averageQueueWaitTime := metrics.averageQueueWaitTime
  averageQueueWaitTimeByTenant := metrics.averageQueueWaitTimeByTenant
  averageQueueWaitTimeByPriority := metrics.averageQueueWaitTimeByPriority
  dispatchCountByTenant := metrics.dispatchCountByTenant
  enqueueRejectedFullCount := metrics.enqueueRejectedFullCount
  enqueueRejectedInvalidCount := metrics.enqueueRejectedInvalidCount

/-! ## The loops that the four runs share -/

/-- What a run does with its scheduler: it offers a job, and asks for the next one. -/
structure Subject (S : Type) where
  accept : S → WorkloadJob → Except PyException (EnqueueStatus × S)
  dequeue : S → Except PyException (Option WorkloadJob × S)
  size : S → ℕ

namespace Subject

variable {S : Type} (X : Subject S)

/-- One job of the enqueue phase. -/
def offer (x : S × SchedulerMetrics) (job : WorkloadJob) :
    Except PyException (S × SchedulerMetrics) := do
  let (status, scheduler) ← X.accept x.1 job
  let metrics ← (x.2.recordEnqueueResult status).observeQueueDepth (X.size scheduler)
  return (scheduler, metrics)

/-- The `while True` loop of the dequeue phase; `none` if the fuel does not last. -/
def drain : ℕ → ℤ → S → SchedulerMetrics → Except PyException (Option SchedulerMetrics)
  | 0, _, _, _ => .ok none
  | fuel + 1, tick, s, metrics => do
      let (out, scheduler) ← X.dequeue s
      match out with
      | none => return some metrics
      | some original =>
          let metrics ← (metrics.recordDispatch original tick).observeQueueDepth (X.size scheduler)
          drain fuel (tick + 1) scheduler metrics

def run (fuel : ℕ) (s₀ : S) (workload : List WorkloadJob) :
    Except PyException (Option RunResult) := do
  let (scheduler, metrics) ← workload.foldlM X.offer (s₀, {})
  let metrics ← X.drain fuel 0 scheduler metrics
  return metrics.map RunResult.of

end Subject

/-! ## The four runs -/

/-- A scheduler, and the dict `by_id` that finds the jobs it was given. -/
structure Indexed (S : Type) where
  scheduler : S
  byId : String → Option WorkloadJob

def keyError (text : String) : PyException := ⟨"KeyError", text⟩

/-- The admission rules of a run whose scheduler has none of its own. -/
def checked (repr : String → String) (capacity : ℤ) (allowedTenants : List String) {S : Type}
    (enqueue : S → WorkloadJob → Except PyException S)
    (dequeue : S → Except PyException (Option String × S)) (size : S → ℕ) :
    Subject (Indexed S) where
  accept x job :=
    if isValid allowedTenants job = false then .ok (.rejectedInvalid, x)
    else if capacity ≤ size x.scheduler then .ok (.rejectedFull, x)
    else do
      let scheduler ← enqueue x.scheduler job
      return (.accepted, ⟨scheduler, Function.update x.byId job.jobId (some job)⟩)
  dequeue x := do
    let (out, scheduler) ← dequeue x.scheduler
    match out with
    | none => return (none, { x with scheduler })
    | some jobId =>
        match x.byId jobId with
        | none => throw (keyError (repr jobId))
        | some original => return (some original, { x with scheduler })
  size x := size x.scheduler

/-- The job without its tenant and its priority. -/
def toFifo (job : WorkloadJob) : SchedulerFifo.Job := ⟨job.jobId, job.createdAt⟩

section Runs

variable (repr : String → String) (capacity : ℤ) (allowedTenants : List String)

def fifoSubject : Subject (Indexed FIFOScheduler) :=
  checked repr capacity allowedTenants
    (fun s job => .ok (s.enqueue (toFifo job)))
    (fun s => .ok (s.dequeue.1.map SchedulerFifo.Job.jobId, s.dequeue.2))
    FIFOScheduler.size

def prioritySubject : Subject (Indexed PriorityScheduler) :=
  checked repr capacity allowedTenants
    (fun s job => s.enqueue job.toPriority)
    (fun s => do
      let (out, scheduler) ← s.dequeue
      return (out.map SchedulerPriority.Job.jobId, scheduler))
    PriorityScheduler.size

def weightedRrSubject : Subject (Indexed WeightedRoundRobinScheduler) :=
  checked repr capacity allowedTenants
    (fun s job => s.enqueue repr job.toWeightedRr)
    (fun s => .ok (s.dequeue.1.map SchedulerWeightedRr.Job.jobId, s.dequeue.2))
    fun s => s.queues.size

def composedSubject : Subject ComposedScheduler where
  accept s job := .ok ((s.enqueue repr job).1.status, (s.enqueue repr job).2)
  dequeue s := do
    let out ← s.dequeue.1
    return (out, s.dequeue.2)
  size s := s.queues.size

variable (fuel : ℕ) (weights : WeightMap) (workload : List WorkloadJob)

/-- `_run_fifo`. -/
def runFifo : Except PyException (Option RunResult) :=
  (fifoSubject repr capacity allowedTenants).run fuel ⟨.empty, fun _ => none⟩ workload

/-- `_run_priority`. -/
def runPriority : Except PyException (Option RunResult) :=
  (prioritySubject repr capacity allowedTenants).run fuel ⟨.empty, fun _ => none⟩ workload

/-- `_run_weighted_rr`. -/
def runWeightedRr : Except PyException (Option RunResult) := do
  let scheduler ← WeightedRoundRobinScheduler.init repr weights
  (weightedRrSubject repr capacity allowedTenants).run fuel ⟨scheduler, fun _ => none⟩ workload

/-- `_run_composed`. -/
def runComposed : Except PyException (Option RunResult) := do
  let scheduler ← ComposedScheduler.init repr capacity weights
  (composedSubject repr).run fuel scheduler workload

end Runs

/-! ## What has been recorded -/

/-- The counts of rejected jobs, and the dispatches with their times. -/
def Recorded (metrics : SchedulerMetrics) (invalid full : ℕ) (ds : List (WorkloadJob × ℤ)) :
    Prop :=
  ∃ recs, SchedulerMetrics.ofRecordings recs = metrics ∧ dispatches recs = ds ∧
    recs.count (.enqueueResult .rejectedInvalid) = invalid ∧
    recs.count (.enqueueResult .rejectedFull) = full

namespace Recorded

variable {metrics : SchedulerMetrics} {invalid full : ℕ} {ds : List (WorkloadJob × ℤ)}

theorem start : Recorded {} 0 0 [] := ⟨[], rfl, rfl, rfl, rfl⟩

/-- Two records in a row. -/
theorem record_twice (recs : List Recording) {r : Recording} (hr : r.depth? = none) (n : ℕ) :
    ∃ m, (SchedulerMetrics.ofRecordings recs).record r = .ok m ∧
      m.observeQueueDepth n = .ok (.ofRecordings (recs ++ [r] ++ [.queueDepth n])) := by
  refine ⟨_, SchedulerMetrics.record_ofRecordings_eq_ok_iff.mpr ⟨?_, rfl⟩,
    SchedulerMetrics.record_ofRecordings_eq_ok_iff (r := .queueDepth n) |>.mpr ⟨?_, rfl⟩⟩
  · rw [hr]
    exact fun depth h => nomatch h
  · intro depth h
    obtain rfl := Option.some.inj h
    exact Int.natCast_nonneg n

theorem enqueueResult (h : Recorded metrics invalid full ds) (status : EnqueueStatus) (n : ℕ) :
    ∃ m, (metrics.recordEnqueueResult status).observeQueueDepth n = .ok m ∧
      Recorded m (invalid + if status = .rejectedInvalid then 1 else 0)
        (full + if status = .rejectedFull then 1 else 0) ds := by
  obtain ⟨recs, rfl, rfl, rfl, rfl⟩ := h
  obtain ⟨m, hm, hobserve⟩ := record_twice recs (r := .enqueueResult status) rfl n
  cases hm
  refine ⟨_, hobserve, _, rfl, ?_, ?_, ?_⟩
  · rw [SchedulerComposed.dispatches_concat, SchedulerComposed.dispatches_concat]
    exact (List.append_nil _).trans (List.append_nil _)
  · cases status <;> simp [List.count_append]
  · cases status <;> simp [List.count_append]

theorem dispatch (h : Recorded metrics invalid full ds) (job : WorkloadJob) (tick : ℤ) (n : ℕ) :
    ∃ m, (metrics.recordDispatch job tick).observeQueueDepth n = .ok m ∧
      Recorded m invalid full (ds ++ [(job, tick)]) := by
  obtain ⟨recs, rfl, rfl, rfl, rfl⟩ := h
  obtain ⟨m, hm, hobserve⟩ := record_twice recs (r := .dispatch job tick) rfl n
  cases hm
  refine ⟨_, hobserve, _, rfl, ?_, ?_, ?_⟩
  · rw [SchedulerComposed.dispatches_concat, SchedulerComposed.dispatches_concat]
    exact List.append_nil _
  · simp [List.count_append]
  · simp [List.count_append]

end Recorded

/-! ## The jobs that are admitted -/

section Admission

variable (capacity : ℤ) (allowedTenants : List String)

/-- What becomes of a job when `n` jobs are queued. -/
def statusOf (n : ℕ) (job : WorkloadJob) : EnqueueStatus :=
  if isValid allowedTenants job = false then .rejectedInvalid
  else if capacity ≤ n then .rejectedFull
  else .accepted

/-- The valid jobs, as many as there is room for. -/
def admitted (workload : List WorkloadJob) : List WorkloadJob :=
  (workload.filter (isValid allowedTenants)).take capacity.toNat

/-- The valid jobs that have found no room. -/
def overflow (workload : List WorkloadJob) : ℕ :=
  workload.countP (isValid allowedTenants) - capacity.toNat

theorem length_admitted (workload : List WorkloadJob) :
    (admitted capacity allowedTenants workload).length =
      min capacity.toNat (workload.countP (isValid allowedTenants)) := by
  rw [admitted, List.length_take, List.countP_eq_length_filter]

theorem statusOf_cases (n : ℕ) (job : WorkloadJob) :
    (isValid allowedTenants job = false ∧
        statusOf capacity allowedTenants n job = .rejectedInvalid) ∨
      (isValid allowedTenants job = true ∧ capacity ≤ n ∧
        statusOf capacity allowedTenants n job = .rejectedFull) ∨
      (isValid allowedTenants job = true ∧ n < capacity ∧
        statusOf capacity allowedTenants n job = .accepted) := by
  rw [statusOf]
  by_cases hvalid : isValid allowedTenants job = false
  · exact Or.inl ⟨hvalid, if_pos hvalid⟩
  rw [if_neg hvalid]
  have hvalid := Bool.eq_true_of_not_eq_false hvalid
  by_cases hfull : capacity ≤ n
  · exact Or.inr (Or.inl ⟨hvalid, hfull, if_pos hfull⟩)
  · exact Or.inr (Or.inr ⟨hvalid, not_le.mp hfull, if_neg hfull⟩)

/-- **One more job**: what its status says of it, and of the counts. -/
theorem admitted_concat (done : List WorkloadJob) (job : WorkloadJob) {status : EnqueueStatus}
    (h : statusOf capacity allowedTenants (admitted capacity allowedTenants done).length job =
      status) :
    admitted capacity allowedTenants (done ++ [job]) =
        (if status = .accepted then admitted capacity allowedTenants done ++ [job]
          else admitted capacity allowedTenants done) ∧
      overflow capacity allowedTenants (done ++ [job]) =
        overflow capacity allowedTenants done + (if status = .rejectedFull then 1 else 0) ∧
      (done ++ [job]).countP (fun job => !isValid allowedTenants job) =
        done.countP (fun job => !isValid allowedTenants job) +
          (if status = .rejectedInvalid then 1 else 0) := by
  have hlength := length_admitted capacity allowedTenants done
  have hvalid_filter : isValid allowedTenants job = true →
      (done ++ [job]).filter (isValid allowedTenants) =
        done.filter (isValid allowedTenants) ++ [job] := by
    intro hvalid
    rw [List.filter_append, List.filter_cons_of_pos hvalid, List.filter_nil]
  subst h
  rcases statusOf_cases capacity allowedTenants (admitted capacity allowedTenants done).length job
    with ⟨hvalid, hstatus⟩ | ⟨hvalid, hfull, hstatus⟩ | ⟨hvalid, hroom, hstatus⟩
  · have hnot : ¬ isValid allowedTenants job = true := Bool.eq_false_iff.mp hvalid
    rw [hstatus, if_neg (by decide), if_neg (by decide), if_pos rfl]
    refine ⟨?_, ?_, ?_⟩
    · rw [admitted, admitted, List.filter_append, List.filter_cons_of_neg hnot, List.filter_nil,
        List.append_nil]
    · rw [overflow, overflow, List.countP_append, List.countP_cons_of_neg hnot]
      rfl
    · rw [List.countP_append]
      simp [hvalid]
  · rw [hstatus, if_neg (by decide), if_pos rfl, if_neg (by decide)]
    rw [hlength, List.countP_eq_length_filter] at hfull
    refine ⟨?_, ?_, ?_⟩
    · rw [admitted, admitted, hvalid_filter hvalid, List.take_append_of_le_length (by omega)]
    · rw [overflow, overflow, List.countP_append, List.countP_cons_of_pos hvalid, List.countP_nil,
        List.countP_eq_length_filter]
      omega
    · rw [List.countP_append]
      simp [hvalid]
  · rw [hstatus, if_pos rfl, if_neg (by decide), if_neg (by decide)]
    rw [hlength, List.countP_eq_length_filter] at hroom
    refine ⟨?_, ?_, ?_⟩
    · rw [admitted, admitted, hvalid_filter hvalid, List.take_of_length_le,
        List.take_of_length_le (by omega)]
      rw [List.length_append, List.length_singleton]
      omega
    · rw [overflow, overflow, List.countP_append, List.countP_cons_of_pos hvalid, List.countP_nil,
        List.countP_eq_length_filter]
      omega
    · rw [List.countP_append]
      simp [hvalid]

/-- One id stands for one job. -/
def IdsIdentify (jobs : List WorkloadJob) : Prop :=
  ∀ a ∈ jobs, ∀ b ∈ jobs, a.jobId = b.jobId → a = b

instance (jobs : List WorkloadJob) : Decidable (IdsIdentify jobs) :=
  inferInstanceAs (Decidable (∀ a ∈ jobs, ∀ b ∈ jobs, _))

end Admission

/-- A report of the admitted jobs, dispatched in an order that `next` allows. -/
def Dispatched (capacity : ℤ) (allowedTenants : List String) (workload : List WorkloadJob)
    (next : List WorkloadJob → WorkloadJob → Prop) (r : RunResult) : Prop :=
  ∃ order metrics, r = RunResult.of metrics ∧
    Served next (admitted capacity allowedTenants workload) order ∧
    Recorded metrics (workload.countP fun job => !isValid allowedTenants job)
      (overflow capacity allowedTenants workload) (timed 0 order)

/-! ## Runs of a subject -/

/-- How a subject behaves that holds the jobs of a list, and of which `next` says which job it
gives out. -/
structure Conducts {S : Type} (X : Subject S) (capacity : ℤ) (allowedTenants : List String)
    (Holds : S → List WorkloadJob → Prop) (next : List WorkloadJob → WorkloadJob → Prop) :
    Prop where
  size : ∀ s jobs, Holds s jobs → X.size s = jobs.length
  accept : ∀ s jobs job, Holds s jobs →
    (statusOf capacity allowedTenants jobs.length job = .accepted → IdsIdentify (jobs ++ [job])) →
    ∃ s', X.accept s job = .ok (statusOf capacity allowedTenants jobs.length job, s') ∧
      Holds s' (if statusOf capacity allowedTenants jobs.length job = .accepted then jobs ++ [job]
        else jobs)
  dequeue : ∀ s jobs, Holds s jobs →
    (jobs = [] ∧ ∃ s', X.dequeue s = .ok (none, s')) ∨
      ∃ job rest s', X.dequeue s = .ok (some job, s') ∧ jobs.Perm (job :: rest) ∧
        next jobs job ∧ Holds s' rest

namespace Conducts

variable {S : Type} {X : Subject S} {capacity : ℤ} {allowedTenants : List String}
  {Holds : S → List WorkloadJob → Prop} {next : List WorkloadJob → WorkloadJob → Prop}

/-- **The enqueue phase** admits what there is room for. -/
theorem offers (h : Conducts X capacity allowedTenants Holds next) {s₀ : S} (hs₀ : Holds s₀ [])
    {workload : List WorkloadJob}
    (hids : IdsIdentify (admitted capacity allowedTenants workload)) :
    ∃ s metrics, workload.foldlM X.offer (s₀, {}) = .ok (s, metrics) ∧
      Holds s (admitted capacity allowedTenants workload) ∧
      Recorded metrics (workload.countP fun job => !isValid allowedTenants job)
        (overflow capacity allowedTenants workload) [] := by
  induction workload using List.reverseRecOn with
  | nil =>
      refine ⟨s₀, {}, rfl, ?_, ?_⟩
      · rwa [admitted, List.filter_nil, List.take_nil]
      · show Recorded {} 0 (0 - capacity.toNat) []
        rw [Nat.zero_sub]
        exact Recorded.start
  | append_singleton done job ih =>
      obtain ⟨hadmitted, hoverflow, hinvalid⟩ := admitted_concat capacity allowedTenants done job rfl
      have hsub : ∀ a ∈ admitted capacity allowedTenants done,
          a ∈ admitted capacity allowedTenants (done ++ [job]) := by
        intro a ha
        rw [hadmitted]
        split
        · exact List.mem_append_left _ ha
        · exact ha
      obtain ⟨s, metrics, hfold, hs, hmetrics⟩ :=
        ih fun a ha b hb => hids a (hsub a ha) b (hsub b hb)
      obtain ⟨s', hadmit, hs'⟩ := h.accept s _ job hs fun haccepted => by
        rw [hadmitted, if_pos haccepted] at hids
        exact hids
      obtain ⟨m, hm, hrecorded⟩ := hmetrics.enqueueResult
        (statusOf capacity allowedTenants (admitted capacity allowedTenants done).length job)
        (X.size s')
      refine ⟨s', m, ?_, ?_, ?_⟩
      · rw [List.foldlM_append, hfold]
        show (X.offer (s, metrics) job >>= fun x => pure x) = _
        rw [bind_pure, Subject.offer, hadmit]
        show ((metrics.recordEnqueueResult _).observeQueueDepth (X.size s') >>= _) = _
        rw [hm]
        rfl
      · rw [hadmitted]
        exact hs'
      · rw [hoverflow, hinvalid]
        exact hrecorded

/-- **The dequeue phase** gives out everything, one job at a tick. -/
theorem drains (h : Conducts X capacity allowedTenants Holds next) {s : S}
    {jobs : List WorkloadJob} (hs : Holds s jobs) {fuel : ℕ} (hfuel : jobs.length < fuel)
    (tick : ℤ) {metrics : SchedulerMetrics} {invalid full : ℕ} {ds : List (WorkloadJob × ℤ)}
    (hmetrics : Recorded metrics invalid full ds) :
    ∃ order m, X.drain fuel tick s metrics = .ok (some m) ∧ Served next jobs order ∧
      Recorded m invalid full (ds ++ timed tick order) := by
  induction fuel generalizing s jobs tick metrics ds with
  | zero => exact absurd hfuel (Nat.not_lt_zero _)
  | succ fuel ih =>
      rw [Subject.drain]
      rcases h.dequeue s jobs hs with ⟨rfl, s', hdequeue⟩ |
        ⟨job, rest, s', hdequeue, hperm, hnext, hs'⟩
      · rw [hdequeue]
        exact ⟨[], metrics, rfl, .nil, by rwa [timed, List.append_nil]⟩
      · have hrest : rest.length < fuel := by
          rw [hperm.length_eq, List.length_cons] at hfuel
          exact Nat.succ_lt_succ_iff.mp hfuel
        obtain ⟨m₁, hm₁, hrecorded⟩ := hmetrics.dispatch job tick (X.size s')
        obtain ⟨order, m, hdrain, hserved, hm⟩ := ih hs' hrest (tick + 1) hrecorded
        refine ⟨job :: order, m, ?_, .cons hperm hnext hserved, ?_⟩
        · rw [hdequeue]
          show ((metrics.recordDispatch job tick).observeQueueDepth (X.size s') >>= _) = _
          rw [hm₁]
          exact hdrain
        · rw [timed, List.append_cons]
          exact hm

/-- **A run**: all that is left open is the order. -/
theorem runs (h : Conducts X capacity allowedTenants Holds next) {s₀ : S} (hs₀ : Holds s₀ [])
    {workload : List WorkloadJob}
    (hids : IdsIdentify (admitted capacity allowedTenants workload)) {fuel : ℕ}
    (hfuel : (admitted capacity allowedTenants workload).length < fuel) :
    ∃ r, X.run fuel s₀ workload = .ok (some r) ∧
      Dispatched capacity allowedTenants workload next r := by
  obtain ⟨s, metrics, hfold, hs, hmetrics⟩ := h.offers hs₀ hids
  obtain ⟨order, m, hdrain, hserved, hm⟩ := h.drains hs hfuel 0 hmetrics
  refine ⟨RunResult.of m, ?_, order, m, rfl, hserved, hm⟩
  rw [Subject.run, hfold]
  show (X.drain fuel 0 s metrics >>= _) = _
  rw [hdrain]
  rfl

end Conducts

/-! ## The four subjects -/

section Conducting

variable {repr : String → String} {capacity : ℤ} {allowedTenants : List String}

/-- The dict finds every job that is queued. -/
def Finds (byId : String → Option WorkloadJob) (jobs : List WorkloadJob) : Prop :=
  ∀ job ∈ jobs, byId job.jobId = some job

theorem Finds.update {byId : String → Option WorkloadJob} {jobs : List WorkloadJob}
    {job : WorkloadJob} (h : Finds byId jobs) (hids : IdsIdentify (jobs ++ [job])) :
    Finds (Function.update byId job.jobId (some job)) (jobs ++ [job]) := by
  intro a ha
  by_cases hid : a.jobId = job.jobId
  · rw [hid, Function.update_self,
      hids a ha job (List.mem_append_right _ (List.mem_singleton_self job)) hid]
  · rw [Function.update_of_ne hid]
    rcases List.mem_append.mp ha with ha | ha
    · exact h a ha
    · exact absurd (congrArg SchedulerComposed.Job.jobId (List.mem_singleton.mp ha)) hid

/-- **A scheduler behind the admission rules** conducts, if it takes the valid jobs and gives
out jobs that it holds. -/
theorem conducts_checked {S : Type} {enqueue : S → WorkloadJob → Except PyException S}
    {dequeue : S → Except PyException (Option String × S)} {size : S → ℕ}
    {Holds : S → List WorkloadJob → Prop} {next : List WorkloadJob → WorkloadJob → Prop}
    (hsize : ∀ s jobs, Holds s jobs → size s = jobs.length)
    (henqueue : ∀ s jobs job, Holds s jobs → isValid allowedTenants job = true →
      ∃ s', enqueue s job = .ok s' ∧ Holds s' (jobs ++ [job]))
    (hdequeue : ∀ s jobs, Holds s jobs →
      (jobs = [] ∧ ∃ s', dequeue s = .ok (none, s')) ∨
        ∃ job rest s', dequeue s = .ok (some job.jobId, s') ∧ jobs.Perm (job :: rest) ∧
          next jobs job ∧ Holds s' rest) :
    Conducts (checked repr capacity allowedTenants enqueue dequeue size) capacity allowedTenants
      (fun x jobs => Holds x.scheduler jobs ∧ Finds x.byId jobs) next where
  size x jobs hx := hsize _ _ hx.1
  accept x jobs job hx hids := by
    have hlength := hsize _ _ hx.1
    show ∃ x', (if isValid allowedTenants job = false then _
      else if capacity ≤ size x.scheduler then _ else _) = _ ∧ _
    rw [hlength]
    rcases statusOf_cases capacity allowedTenants jobs.length job with ⟨hvalid, hstatus⟩ |
      ⟨hvalid, hfull, hstatus⟩ | ⟨hvalid, hroom, hstatus⟩
    · rw [hstatus, if_pos hvalid]
      exact ⟨x, rfl, hx⟩
    · rw [hstatus, if_neg ((Bool.not_eq_false _).mpr hvalid), if_pos hfull]
      exact ⟨x, rfl, hx⟩
    · rw [hstatus, if_neg ((Bool.not_eq_false _).mpr hvalid), if_neg (not_le.mpr hroom)]
      obtain ⟨s', heq, hs'⟩ := henqueue _ _ job hx.1 hvalid
      rw [heq]
      exact ⟨_, rfl, hs', hx.2.update (hids hstatus)⟩
  dequeue x jobs hx := by
    rcases hdequeue _ _ hx.1 with ⟨hnil, s', heq⟩ | ⟨job, rest, s', heq, hperm, hnext, hs'⟩
    · refine Or.inl ⟨hnil, { x with scheduler := s' }, ?_⟩
      show (dequeue x.scheduler >>= _) = _
      rw [heq]
      rfl
    · have hmem : ∀ a ∈ rest, a ∈ jobs :=
        fun a ha => hperm.mem_iff.mpr (List.mem_cons_of_mem _ ha)
      refine Or.inr ⟨job, rest, { x with scheduler := s' }, ?_, hperm, hnext, hs',
        fun a ha => hx.2 a (hmem a ha)⟩
      have hfound := hx.2 job (hperm.mem_iff.mpr List.mem_cons_self)
      show (dequeue x.scheduler >>= _) = _
      rw [heq]
      show (match x.byId job.jobId with
        | none => _
        | some original => _) = _
      rw [hfound]
      rfl

/-- A queue that holds what the jobs are to it gives out one of the jobs. -/
theorem exists_of_perm_cons {β : Type} {f : WorkloadJob → β} {jobs : List WorkloadJob} {b : β}
    {bs : List β} (h : (jobs.map f).Perm (b :: bs)) :
    ∃ job rest, f job = b ∧ jobs.Perm (job :: rest) ∧ bs.Perm (rest.map f) := by
  obtain ⟨job, hjob, rfl⟩ := List.mem_map.mp (h.mem_iff.mpr List.mem_cons_self)
  have hperm := List.perm_cons_erase hjob
  exact ⟨job, jobs.erase job, rfl, hperm, ((hperm.map f).symm.trans h).cons_inv.symm⟩

def FifoHolds (s : FIFOScheduler) (jobs : List WorkloadJob) : Prop :=
  s.queue = jobs.map toFifo

def PriorityHolds (s : PriorityScheduler) (jobs : List WorkloadJob) : Prop :=
  BinaryHeap.IsHeap s.heap ∧ s.jobs.Perm (jobs.map Job.toPriority)

def WeightedRrHolds (weights : WeightMap) (s : WeightedRoundRobinScheduler)
    (jobs : List WorkloadJob) : Prop :=
  s.Inv weights ∧ s.queues.jobs.Perm (jobs.map Job.toWeightedRr)

def ComposedHolds (weights : WeightMap) (capacity : ℤ) (s : ComposedScheduler)
    (jobs : List WorkloadJob) : Prop :=
  s.Inv weights ∧ s.capacity = capacity ∧ s.queues.jobs.Perm jobs

theorem fifo_conducts : Conducts (fifoSubject repr capacity allowedTenants) capacity
    allowedTenants (fun x jobs => FifoHolds x.scheduler jobs ∧ Finds x.byId jobs)
    fun _ _ => True := by
  apply conducts_checked
  · intro s jobs h
    rw [FIFOScheduler.size, h, List.length_map]
  · intro s jobs job h _
    refine ⟨_, rfl, ?_⟩
    rw [FifoHolds, FIFOScheduler.enqueue, h, List.map_append, List.map_singleton]
  · intro s jobs h
    cases jobs with
    | nil =>
        refine Or.inl ⟨rfl, s, ?_⟩
        rw [FIFOScheduler.dequeue, h]
        rfl
    | cons job rest =>
        refine Or.inr ⟨job, rest, ⟨rest.map toFifo⟩, ?_, List.Perm.refl _, trivial, rfl⟩
        rw [FIFOScheduler.dequeue, h]
        rfl

theorem priority_conducts : Conducts (prioritySubject repr capacity allowedTenants) capacity
    allowedTenants (fun x jobs => PriorityHolds x.scheduler jobs ∧ Finds x.byId jobs)
    fun jobs job => ∀ j ∈ jobs, job.toPriority ≤ j.toPriority := by
  apply conducts_checked
  · rintro s jobs ⟨-, hperm⟩
    rw [s.size_eq_length_jobs, hperm.length_eq, List.length_map]
  · rintro s jobs job ⟨hheap, hperm⟩ _
    obtain ⟨s', heq, hheap', hperm'⟩ := s.enqueue_spec hheap job.toPriority
    refine ⟨s', heq, hheap', ?_⟩
    rw [List.map_append, List.map_singleton]
    exact (hperm'.trans (hperm.cons _)).trans (List.perm_append_singleton _ _).symm
  · rintro s jobs ⟨hheap, hperm⟩
    rcases s.dequeue_spec hheap with ⟨hnil, hdequeue, -⟩ |
      ⟨first, s', hdequeue, -, hheap', hperm', hleast⟩
    · rw [hnil] at hperm
      refine Or.inl ⟨List.map_eq_nil_iff.mp hperm.nil_eq.symm, s, ?_⟩
      rw [hdequeue]
      rfl
    · obtain ⟨job, rest, rfl, hjobs, hrest⟩ := exists_of_perm_cons (hperm.symm.trans hperm')
      refine Or.inr ⟨job, rest, s', ?_, hjobs, ?_, hheap', hrest⟩
      · rw [hdequeue]
        rfl
      · intro j hj
        exact hleast _ (hperm.mem_iff.mpr (List.mem_map_of_mem hj))

theorem weightedRr_conducts {weights : WeightMap} :
    Conducts (weightedRrSubject repr capacity weights.tenants) capacity weights.tenants
      (fun x jobs => WeightedRrHolds weights x.scheduler jobs ∧ Finds x.byId jobs)
      fun _ _ => True := by
  apply conducts_checked
  · rintro s jobs ⟨-, hperm⟩
    rw [s.queues.size_eq_length_jobs, hperm.length_eq, List.length_map]
  · rintro s jobs job ⟨hinv, hperm⟩ hvalid
    have hknown : job.toWeightedRr.tenantId ∈ s.queues.tenants := by
      rw [isValid, Bool.and_eq_true] at hvalid
      rw [hinv.tenants]
      exact List.contains_iff_mem.mp hvalid.2
    have heq : s.enqueue repr job.toWeightedRr = .ok _ :=
      WeightedRoundRobinScheduler.enqueue_eq_ok hknown
    have hinv' := WeightedRoundRobinScheduler.inv_call repr hinv (.enqueue job.toWeightedRr)
    rw [WeightedRoundRobinScheduler.call, heq] at hinv'
    refine ⟨_, heq, hinv', ?_⟩
    rw [List.map_append, List.map_singleton]
    exact (s.queues.jobs_append_perm hknown _).trans (hperm.append_right _)
  · rintro s jobs ⟨hinv, hperm⟩
    have hinv' := WeightedRoundRobinScheduler.inv_call repr hinv .dequeue
    rw [WeightedRoundRobinScheduler.call] at hinv'
    rcases WeightedRoundRobinScheduler.dequeue_spec hinv with ⟨hzero, hdequeue, -⟩ |
      ⟨-, t, first, others, cycle, hqueue, -, hturn, -, hdequeue⟩
    · refine Or.inl ⟨?_, s, ?_⟩
      · rw [s.queues.size_eq_length_jobs, hperm.length_eq, List.length_map] at hzero
        exact List.length_eq_zero_iff.mp hzero
      · rw [hdequeue]
        rfl
    · rw [hdequeue] at hinv'
      have hmem : t ∈ s.queues.tenants := by
        obtain ⟨skipped, tail, hlap, -⟩ := hturn
        apply hinv.mem_slots_iff.mp
        apply s.cycle.lap_perm.mem_iff.mp
        simp [hlap]
      have hremoved := s.queues.jobs_removed_perm hmem (List.Perm.of_eq hqueue)
      obtain ⟨job, rest, rfl, hjobs, hrest⟩ := exists_of_perm_cons (hperm.symm.trans hremoved)
      refine Or.inr ⟨job, rest, _, ?_, hjobs, trivial, hinv', hrest⟩
      rw [hdequeue]
      rfl

theorem composed_conducts {weights : WeightMap} :
    Conducts (composedSubject repr) capacity weights.tenants (ComposedHolds weights capacity)
      fun _ _ => True where
  size s jobs := by
    rintro ⟨-, -, hperm⟩
    show s.queues.size = _
    rw [s.queues.size_eq_length_jobs, hperm.length_eq]
  accept s jobs job := by
    rintro ⟨hinv, hcapacity, hperm⟩ -
    have hlength : s.queues.size = jobs.length := by
      rw [s.queues.size_eq_length_jobs, hperm.length_eq]
    have hadmissible : s.Admissible job ↔ isValid weights.tenants job = true := by
      rw [isValid, Bool.and_eq_true, Bool.and_eq_true, decide_eq_true_iff, decide_eq_true_iff,
        List.contains_iff_mem]
      constructor
      · rintro ⟨hid, htenant, hknown⟩
        exact ⟨⟨hid, htenant⟩, hinv.queues.tenants ▸ hknown⟩
      · rintro ⟨⟨hid, htenant⟩, hknown⟩
        exact ⟨hid, htenant, hinv.queues.tenants ▸ hknown⟩
    have hinv' := ComposedScheduler.inv_call repr hinv (.enqueue job)
    rw [ComposedScheduler.call] at hinv'
    show ∃ s', Except.ok ((s.enqueue repr job).1.status, (s.enqueue repr job).2) = _ ∧ _
    rcases ComposedScheduler.enqueue_spec repr s job with ⟨hnot, hstatus, hsame⟩ |
      ⟨hjob, hfull, hstatus, hsame⟩ | ⟨hjob, hroom, hstatus, hafter⟩
    · have hinvalid := Bool.eq_false_iff.mpr fun h => hnot (hadmissible.mpr h)
      rw [hstatus, hsame, statusOf, if_pos hinvalid]
      exact ⟨s, rfl, hinv, hcapacity, hperm⟩
    · have hvalid : ¬ isValid weights.tenants job = false :=
        (Bool.not_eq_false _).mpr (hadmissible.mp hjob)
      rw [hcapacity, hlength] at hfull
      rw [hstatus, hsame, statusOf, if_neg hvalid, if_pos hfull]
      exact ⟨s, rfl, hinv, hcapacity, hperm⟩
    · have hvalid : ¬ isValid weights.tenants job = false :=
        (Bool.not_eq_false _).mpr (hadmissible.mp hjob)
      rw [hcapacity, hlength] at hroom
      rw [hafter] at hinv' ⊢
      rw [hstatus, statusOf, if_neg hvalid, if_neg (not_le.mpr hroom)]
      refine ⟨_, rfl, hinv', hcapacity, ?_⟩
      exact (s.queues.jobs_append_perm hjob.known job).trans (hperm.append_right _)
  dequeue s jobs := by
    rintro ⟨hinv, hcapacity, hperm⟩
    have hinv' := ComposedScheduler.inv_call repr hinv .dequeue
    rw [ComposedScheduler.call] at hinv'
    show (_ ∧ ∃ s', (s.dequeue.1 >>= fun out => pure (out, s.dequeue.2)) = _) ∨
      ∃ job rest s', (s.dequeue.1 >>= fun out => pure (out, s.dequeue.2)) = _ ∧ _
    rcases ComposedScheduler.dequeue_spec hinv.queues with ⟨hzero, hdequeue, -⟩ |
      ⟨-, t, index, job, cycle, -, hqueue, -, hturn, -, hdequeue⟩
    · rw [hdequeue]
      refine Or.inl ⟨?_, s, rfl⟩
      rw [s.queues.size_eq_length_jobs, hperm.length_eq] at hzero
      exact List.length_eq_zero_iff.mp hzero
    · rw [hdequeue] at hinv' ⊢
      have hmem := ComposedScheduler.mem_tenants_of_turn hinv.queues hturn
      have hremoved := hperm.symm.trans (s.queues.jobs_removed_perm hmem hqueue)
      exact Or.inr ⟨job, _, _, rfl, hremoved, trivial, hinv', hcapacity, List.Perm.refl _⟩

end Conducting

/-! ## What a run reports -/

/-- The waits of the dispatched jobs with a priority of at least `p`, together: the averages by
priority, each as often as it counts. -/
def waitAbove (jobs : List WorkloadJob) (p : ℤ) (r : RunResult) : ℚ :=
  ((r.averageQueueWaitTimeByPriority.keys.filter fun q => decide (p ≤ q)).map fun q =>
    (jobs.countP (fun job => decide (job.priority = q)) : ℚ) *
      r.averageQueueWaitTimeByPriority.get q).sum

/-- **The averages of one dimension** add up to the waits of the dispatches they stand for. -/
theorem sum_averages {κ : Type} [DecidableEq κ] (key : WorkloadJob → κ) (q : κ → Bool)
    (ds : List (WorkloadJob × ℤ)) :
    let averages := SchedulerMetrics.averages (.ofList (ds.map fun d => (key d.1, 1)))
      (.ofList (ds.map fun d => (key d.1, waitTime d)))
    ((averages.keys.filter q).map fun k =>
        ((ds.map Prod.fst).countP (fun job => decide (key job = k)) : ℚ) * averages.get k).sum =
      (((ds.filter fun d => q (key d.1)).map waitTime).sum : ℤ) := by
  intro averages
  have hconsistent := SchedulerComposed.consistent_ofList (fun d => key d.1) ds
  have hkeys : averages.keys = (Tally.ofList (ds.map fun d => (key d.1, (1 : ℕ)))).keys :=
    hconsistent.averageKeys
  -- the dispatches of a key make up its average
  have hterm : ∀ k ∈ averages.keys.filter q,
      ((ds.map Prod.fst).countP (fun job => decide (key job = k)) : ℚ) * averages.get k =
        (((ds.filter fun d => decide (key d.1 = k)).map waitTime).sum : ℤ) := by
    intro k hk
    obtain ⟨average, haverage⟩ := Tally.mem_keys_iff.mp (List.mem_of_mem_filter hk)
    have hmul := hconsistent.average k average haverage
    rw [Tally.get_ofList_map, Tally.get_ofList_map] at hmul
    have hcount : (ds.map Prod.fst).countP (fun job => decide (key job = k)) =
        ((ds.filter fun d => decide (key d.1 = k)).map fun _ => 1).sum := by
      rw [List.countP_map, List.countP_eq_length_filter]
      simp [Function.comp_def]
    rw [hcount, Tally.get_eq_of_lookup haverage, mul_comm]
    exact_mod_cast hmul
  have hfilter : (ds.filter fun d => q (key d.1)) =
      ds.filter fun d => decide (key d.1 ∈ averages.keys.filter q) := by
    apply List.filter_congr
    intro d hd
    have hmem : key d.1 ∈ averages.keys := by
      rw [hkeys, Tally.mem_keys_ofList_iff, List.map_map]
      exact List.mem_map_of_mem hd
    simp [List.mem_filter, hmem]
  have hnodup : (averages.keys.filter q).Nodup := averages.nodup.filter _
  rw [List.map_congr_left hterm, hfilter, Tally.sum_filter_mem _ _ hnodup]
  rw [Int.cast_list_sum, List.map_map]
  rfl

section Reports

variable {metrics : SchedulerMetrics} {invalid full : ℕ} {jobs order : List WorkloadJob}

/-- The waits of a class, as its times. -/
theorem waitAbove_of_recorded (hperm : order.Perm jobs)
    (h : Recorded metrics invalid full (timed 0 order)) (p : ℤ) :
    waitAbove jobs p (RunResult.of metrics) =
      ((ticksOf (fun job : WorkloadJob => decide (p ≤ job.priority)) 0 order).sum -
        ((jobs.filter fun job => decide (p ≤ job.priority)).map
          SchedulerComposed.Job.createdAt).sum : ℤ) := by
  obtain ⟨recs, rfl, hdispatches, -, -⟩ := h
  have hsum := sum_averages SchedulerComposed.Job.priority (fun q => decide (p ≤ q))
    (dispatches recs)
  have hcount : ∀ q : WorkloadJob → Bool, ((dispatches recs).map Prod.fst).countP q =
      jobs.countP q := by
    intro q
    rw [hdispatches, map_fst_timed, hperm.countP_eq]
  simp only [hcount] at hsum
  refine hsum.trans (congrArg _ ?_)
  have hcreated : (((timed 0 order).filter fun d => decide (p ≤ d.1.priority)).map
      fun d => d.1.createdAt).sum =
        ((jobs.filter fun job => decide (p ≤ job.priority)).map
          SchedulerComposed.Job.createdAt).sum := by
    rw [← ((hperm.filter _).map _).sum_eq]
    conv_rhs => rw [← map_fst_timed 0 order, List.filter_map, List.map_map]
    rfl
  rw [hdispatches, ← hcreated, ticksOf]
  exact sum_waits _ _

end Reports

/-! ## The comparison -/

section Comparison

variable {repr : String → String} {capacity : ℤ} {weights : WeightMap} {s₀ : ComposedScheduler}

/-- The four reports on a workload, if nothing is raised. -/
structure Reports where
  fifo : RunResult
  priority : RunResult
  weightedRr : RunResult
  composed : RunResult

/-- What the four runs return. -/
structure Reports.Returned (repr : String → String) (capacity : ℤ) (weights : WeightMap)
    (fuel : ℕ) (workload : List WorkloadJob) (r : Reports) : Prop where
  fifo : runFifo repr capacity weights.tenants fuel workload = .ok (some r.fifo)
  priority : runPriority repr capacity weights.tenants fuel workload = .ok (some r.priority)
  weightedRr : runWeightedRr repr capacity weights.tenants fuel weights workload =
    .ok (some r.weightedRr)
  composed : runComposed repr capacity fuel weights workload = .ok (some r.composed)

variable {workload : List WorkloadJob} {fuel : ℕ}

variable (repr) in
theorem fifo_returns (hids : IdsIdentify (admitted capacity weights.tenants workload))
    (hfuel : (admitted capacity weights.tenants workload).length < fuel) :
    ∃ r, runFifo repr capacity weights.tenants fuel workload = .ok (some r) ∧
      Dispatched capacity weights.tenants workload (fun _ _ => True) r := by
  have hstart : FifoHolds .empty [] := rfl
  exact fifo_conducts.runs ⟨hstart, fun _ hjob => nomatch hjob⟩ hids hfuel

variable (repr) in
theorem priority_returns (hids : IdsIdentify (admitted capacity weights.tenants workload))
    (hfuel : (admitted capacity weights.tenants workload).length < fuel) :
    ∃ r, runPriority repr capacity weights.tenants fuel workload = .ok (some r) ∧
      Dispatched capacity weights.tenants workload
        (fun jobs job => ∀ j ∈ jobs, job.toPriority ≤ j.toPriority) r := by
  have hstart : PriorityHolds .empty [] := ⟨BinaryHeap.isHeap_empty, .refl _⟩
  exact priority_conducts.runs ⟨hstart, fun _ hjob => nomatch hjob⟩ hids hfuel

variable (repr) in
theorem weightedRr_returns (hvalid : weights.Valid)
    (hids : IdsIdentify (admitted capacity weights.tenants workload))
    (hfuel : (admitted capacity weights.tenants workload).length < fuel) :
    ∃ r, runWeightedRr repr capacity weights.tenants fuel weights workload = .ok (some r) ∧
      Dispatched capacity weights.tenants workload (fun _ _ => True) r := by
  have hnone : WeightedRoundRobinScheduler.initError repr weights = none :=
    WeightedRoundRobinScheduler.initError_eq_none_iff.mpr hvalid
  have hinit := WeightedRoundRobinScheduler.init_eq_ok hnone
  have hempty : (TenantQueues.empty weights : TenantQueues SchedulerWeightedRr.Job).jobs = [] :=
    List.flatMap_eq_nil_iff.mpr fun _ _ => rfl
  rw [runWeightedRr, hinit]
  refine weightedRr_conducts.runs ⟨⟨WeightedRoundRobinScheduler.inv_init hinit, ?_⟩,
    fun _ hjob => nomatch hjob⟩ hids hfuel
  rw [hempty]
  exact List.Perm.refl _

theorem composed_returns (hinit : ComposedScheduler.init repr capacity weights = .ok s₀)
    (hids : IdsIdentify (admitted capacity weights.tenants workload))
    (hfuel : (admitted capacity weights.tenants workload).length < fuel) :
    ∃ r, runComposed repr capacity fuel weights workload = .ok (some r) ∧
      Dispatched capacity weights.tenants workload (fun _ _ => True) r := by
  obtain ⟨hinv, hcapacity, hempty⟩ := ComposedScheduler.inv_init hinit
  rw [runComposed, hinit]
  exact composed_conducts.runs ⟨hinv, hcapacity, List.Perm.of_eq hempty⟩ hids hfuel

/-- The workload of the script: one job without an id, and one more than there is room for. -/
def buildWorkload : List WorkloadJob :=
  [⟨"a-low", "tenant-a", 1, -8⟩, ⟨"b-one", "tenant-b", 5, -7⟩, ⟨"a-high", "tenant-a", 10, -6⟩,
    ⟨"b-two", "tenant-b", 1, -5⟩, ⟨"", "tenant-a", 1, -4⟩, ⟨"a-mid", "tenant-a", 5, -3⟩,
    ⟨"b-three", "tenant-b", 2, -2⟩, ⟨"overflow", "tenant-a", 10, -1⟩]

/-- **Jobs of high priority wait least under the priority scheduler**, whatever counts as
high. -/
theorem priority_waits_least (hinit : ComposedScheduler.init repr capacity weights = .ok s₀)
    (workload : List WorkloadJob)
    (hids : IdsIdentify (admitted capacity weights.tenants workload)) {fuel : ℕ}
    (hfuel : (admitted capacity weights.tenants workload).length < fuel) :
    ∃ r : Reports, r.Returned repr capacity weights fuel workload ∧
      ∀ result ∈ [r.fifo, r.priority, r.weightedRr, r.composed], ∀ p,
        waitAbove (admitted capacity weights.tenants workload) p r.priority ≤
          waitAbove (admitted capacity weights.tenants workload) p result := by
  obtain ⟨fifo, hfifo, h₁⟩ := fifo_returns repr hids hfuel
  obtain ⟨priority, hpriority, h₂⟩ := priority_returns repr hids hfuel
  obtain ⟨weightedRr, hweightedRr, h₃⟩ :=
    weightedRr_returns repr (ComposedScheduler.eq_of_init hinit).2.1 hids hfuel
  obtain ⟨composed, hcomposed, h₄⟩ := composed_returns hinit hids hfuel
  refine ⟨⟨fifo, priority, weightedRr, composed⟩, ⟨hfifo, hpriority, hweightedRr, hcomposed⟩, ?_⟩
  have hleast : ∀ {next r}, Dispatched capacity weights.tenants workload next r → ∀ p,
      waitAbove (admitted capacity weights.tenants workload) p priority ≤
        waitAbove (admitted capacity weights.tenants workload) p r := by
    rintro next r ⟨order, metrics, rfl, hserved, hmetrics⟩ p
    obtain ⟨order', metrics', rfl, hserved', hmetrics'⟩ := h₂
    rw [waitAbove_of_recorded hserved.perm hmetrics, waitAbove_of_recorded hserved'.perm hmetrics',
      Int.cast_le]
    apply sub_le_sub_right
    apply sum_ticks_le _ (hserved'.perm.trans hserved.perm.symm)
    -- nobody below the threshold comes before somebody above it
    apply (hserved'.pairwise fun jobs job hnext => hnext).imp
    intro a b hle hb
    rw [decide_eq_true_iff] at hb ⊢
    rcases hle.lt_or_eq with hlt | heq
    · rcases SchedulerPriority.Job.lt_iff.mp hlt with hgt | ⟨hsame, -⟩ | ⟨hsame, -⟩
      · exact hb.trans hgt.le
      · exact hb.trans hsame.ge
      · exact hb.trans hsame.ge
    · exact hb.trans (congrArg SchedulerPriority.Job.priority heq).ge
  intro result hresult
  simp only [List.mem_cons, List.not_mem_nil, or_false] at hresult
  rcases hresult with rfl | rfl | rfl | rfl
  · exact hleast h₁
  · exact hleast h₂
  · exact hleast h₃
  · exact hleast h₄

theorem priority_waits_least_buildWorkload :
    ∃ r : Reports, r.Returned (fun t => t) 6 .twoToOne 7 buildWorkload ∧
      ∀ result ∈ [r.fifo, r.priority, r.weightedRr, r.composed], ∀ p,
        waitAbove (admitted 6 WeightMap.twoToOne.tenants buildWorkload) p r.priority ≤
          waitAbove (admitted 6 WeightMap.twoToOne.tenants buildWorkload) p result := by
  have hinit := ComposedScheduler.init_eq_ok
    (show ComposedScheduler.initError (fun t => t) 6 .twoToOne = none by decide +kernel)
  exact priority_waits_least hinit buildWorkload (by decide +kernel) (by decide +kernel)

end Comparison

end KernelQ.ControlPlane.SchedulerComparison
