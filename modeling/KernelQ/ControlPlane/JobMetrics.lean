import Mathlib.Algebra.Order.BigOperators.Group.List
import Mathlib.Data.List.Induction
import Mathlib.Data.Rat.Floor
import KernelQ.Foundation.NearestRank
import KernelQ.Foundation.OrderedSelection

/-!
# Durations of jobs

`job_metrics.py`, over exact numbers. A job is any object with attributes, and one that is
missing is `None`; a timestamp that is not a number or a `datetime` is unavailable. The loop
is a fold that adds one job after another to its totals (`foldl_addJob`), so the metrics are
functions of the waits and completion times it counts.
-/

namespace KernelQ.ControlPlane

open KernelQ.Foundation

/-- The value of an attribute; a `datetime` is given by its `timestamp()`. -/
inductive Attribute
  | none
  | bool (b : Bool)
  | int (i : ℤ)
  | float (x : ℚ)
  | str (s : String)
  | datetime (timestamp : ℚ)
  | other

/-- What is read of a job. -/
structure MeasuredJob where
  state : Attribute := .none
  createdAt : Attribute := .none
  updatedAt : Attribute := .none
  dispatchedAt : Attribute := .none

def completedStates : List String := ["succeeded", "failed", "dead_lettered"]

/-- `state in _COMPLETED_STATES`. -/
def isCompleted : Attribute → Bool
  | .str s => decide (s ∈ completedStates)
  | _ => false

def toEpochSeconds : Attribute → Option ℚ
  | .datetime timestamp => some timestamp
  | .int i => some i
  | .float x => some x
  | _ => .none

structure JobDurationMetrics where
  completedJobsCount : ℕ
  averageQueueWaitSeconds : ℚ
  averageCompletionSeconds : ℚ
  p50QueueWaitSeconds : ℚ
  p95QueueWaitSeconds : ℚ
  p99QueueWaitSeconds : ℚ

/-- `l[i]`; `none` is an `IndexError`. -/
def getItem (l : List ℚ) (i : ℤ) : Option ℚ :=
  if 0 ≤ i then l[i.toNat]?
  else if 0 ≤ l.length + i then l[(l.length + i).toNat]?
  else .none

def percentileNearestRank (sortedValues : List ℚ) (p : ℚ) : Option ℚ :=
  if sortedValues = [] then some 0
  else
    getItem sortedValues (max 1 (min ⌈p / 100 * sortedValues.length⌉ sortedValues.length) - 1)

/-- The locals of the loop. -/
structure DurationTotals where
  completedCount : ℕ := 0
  queueWaitValues : List ℚ := []
  queueWaitTotal : ℚ := 0
  queueWaitCount : ℕ := 0
  completionTotal : ℚ := 0
  completionCount : ℕ := 0

namespace DurationTotals

def addQueueWait (t : DurationTotals) (createdAt dispatchedAt : Option ℚ) : DurationTotals :=
  match createdAt, dispatchedAt with
  | some createdAt, some dispatchedAt =>
      if 0 ≤ dispatchedAt - createdAt then
        { t with
          queueWaitValues := t.queueWaitValues ++ [dispatchedAt - createdAt]
          queueWaitTotal := t.queueWaitTotal + (dispatchedAt - createdAt)
          queueWaitCount := t.queueWaitCount + 1 }
      else t
  | _, _ => t

def addCompletion (t : DurationTotals) (createdAt updatedAt : Option ℚ) : DurationTotals :=
  match createdAt, updatedAt with
  | some createdAt, some updatedAt =>
      { t with
        completionTotal := t.completionTotal + (updatedAt - createdAt)
        completionCount := t.completionCount + 1 }
  | _, _ => t

/-- The body of the loop. -/
def addJob (t : DurationTotals) (job : MeasuredJob) : DurationTotals :=
  if isCompleted job.state then
    (({ t with completedCount := t.completedCount + 1 } : DurationTotals).addQueueWait
      (toEpochSeconds job.createdAt) (toEpochSeconds job.dispatchedAt)).addCompletion
        (toEpochSeconds job.createdAt) (toEpochSeconds job.updatedAt)
  else t

end DurationTotals

/-- `list.sort`. -/
def sortedValues (values : List ℚ) : List ℚ := (SortKey.ascending id).sort values

/-- What is computed behind the loop. -/
def DurationTotals.metrics (t : DurationTotals) : Option JobDurationMetrics := do
  let queueWaitValues := sortedValues t.queueWaitValues
  let p50 ← percentileNearestRank queueWaitValues 50
  let p95 ← percentileNearestRank queueWaitValues 95
  let p99 ← percentileNearestRank queueWaitValues 99
  return {
    completedJobsCount := t.completedCount
    averageQueueWaitSeconds :=
      if t.queueWaitCount ≠ 0 then t.queueWaitTotal / t.queueWaitCount else 0
    averageCompletionSeconds :=
      if t.completionCount ≠ 0 then t.completionTotal / t.completionCount else 0
    p50QueueWaitSeconds := p50
    p95QueueWaitSeconds := p95
    p99QueueWaitSeconds := p99 }

def computeJobDurationMetrics (jobs : List MeasuredJob) : Option JobDurationMetrics :=
  (jobs.foldl DurationTotals.addJob {}).metrics

/-! ## What is counted -/

/-- The wait between two timestamps, if it counts. -/
def waitBetween (createdAt dispatchedAt : Option ℚ) : Option ℚ :=
  match createdAt, dispatchedAt with
  | some createdAt, some dispatchedAt =>
      if 0 ≤ dispatchedAt - createdAt then some (dispatchedAt - createdAt) else .none
  | _, _ => .none

def timeBetween (createdAt updatedAt : Option ℚ) : Option ℚ :=
  match createdAt, updatedAt with
  | some createdAt, some updatedAt => some (updatedAt - createdAt)
  | _, _ => .none

/-- The wait that counts for a job. -/
def queueWait (job : MeasuredJob) : Option ℚ :=
  if isCompleted job.state then
    waitBetween (toEpochSeconds job.createdAt) (toEpochSeconds job.dispatchedAt)
  else .none

def completionTime (job : MeasuredJob) : Option ℚ :=
  if isCompleted job.state then
    timeBetween (toEpochSeconds job.createdAt) (toEpochSeconds job.updatedAt)
  else .none

def queueWaits (jobs : List MeasuredJob) : List ℚ := jobs.filterMap queueWait

def completionTimes (jobs : List MeasuredJob) : List ℚ := jobs.filterMap completionTime

namespace DurationTotals

theorem addQueueWait_eq (t : DurationTotals) (createdAt dispatchedAt : Option ℚ) :
    t.addQueueWait createdAt dispatchedAt =
      { t with
        queueWaitValues := t.queueWaitValues ++ (waitBetween createdAt dispatchedAt).toList
        queueWaitTotal := t.queueWaitTotal + (waitBetween createdAt dispatchedAt).toList.sum
        queueWaitCount :=
          t.queueWaitCount + (waitBetween createdAt dispatchedAt).toList.length } := by
  cases createdAt with
  | none => simp [addQueueWait, waitBetween]
  | some createdAt =>
      cases dispatchedAt with
      | none => simp [addQueueWait, waitBetween]
      | some dispatchedAt =>
          simp only [addQueueWait, waitBetween]
          split <;> simp

theorem addCompletion_eq (t : DurationTotals) (createdAt updatedAt : Option ℚ) :
    t.addCompletion createdAt updatedAt =
      { t with
        completionTotal := t.completionTotal + (timeBetween createdAt updatedAt).toList.sum
        completionCount := t.completionCount + (timeBetween createdAt updatedAt).toList.length } := by
  cases createdAt with
  | none => simp [addCompletion, timeBetween]
  | some createdAt => cases updatedAt <;> simp [addCompletion, timeBetween]

/-- The totals of these jobs. -/
def ofJobs (jobs : List MeasuredJob) : DurationTotals where
  completedCount := jobs.countP fun job => isCompleted job.state
  queueWaitValues := queueWaits jobs
  queueWaitTotal := (queueWaits jobs).sum
  queueWaitCount := (queueWaits jobs).length
  completionTotal := (completionTimes jobs).sum
  completionCount := (completionTimes jobs).length

theorem addJob_ofJobs (jobs : List MeasuredJob) (job : MeasuredJob) :
    (ofJobs jobs).addJob job = ofJobs (jobs ++ [job]) := by
  have hone : ∀ f : MeasuredJob → Option ℚ, [job].filterMap f = (f job).toList := by
    intro f
    cases h : f job <;> simp [h]
  simp only [ofJobs, queueWaits, completionTimes, List.filterMap_append, hone, List.countP_append,
    List.sum_append, List.length_append]
  by_cases hstate : isCompleted job.state = true
  · simp [addJob, addQueueWait_eq, addCompletion_eq, queueWait, completionTime, hstate]
  · simp [addJob, queueWait, completionTime, hstate]

end DurationTotals

/-- **The loop** adds up what counts. -/
theorem foldl_addJob (jobs : List MeasuredJob) :
    jobs.foldl DurationTotals.addJob {} = .ofJobs jobs := by
  induction jobs using List.reverseRecOn with
  | nil => rfl
  | append_singleton jobs job ih =>
      rw [List.foldl_append, ih, List.foldl_cons, List.foldl_nil, DurationTotals.addJob_ofJobs]

/-! ## Percentiles -/

theorem sortedValues_perm (values : List ℚ) : (sortedValues values).Perm values :=
  SortKey.sort_perm _ values

theorem sortedValues_sorted (values : List ℚ) : (sortedValues values).Pairwise (· ≤ ·) :=
  (SortKey.sort_sorted (.ascending id) values).imp fun h => of_decide_eq_true h

/-- There is one sorted list of the values. -/
theorem sortedValues_eq_of_perm {values values' : List ℚ} (h : values.Perm values') :
    sortedValues values = sortedValues values' := by
  refine SortKey.sort_eq_of_perm _ h ?_
  intro a _ b _ hab hba
  exact le_antisymm (of_decide_eq_true hab) (of_decide_eq_true hba)

/-- **The rank**: neither is it clamped, nor is the index out of range. -/
theorem percentileNearestRank_eq {values : List ℚ} {p : ℚ} (hne : values ≠ []) (hpos : 0 < p)
    (hle : p ≤ 100) : ∃ (i : ℕ) (hi : i < values.length),
      percentileNearestRank values p = some values[i] ∧ (i : ℚ) < p / 100 * values.length ∧
        p / 100 * values.length ≤ (i + 1 : ℕ) := by
  obtain ⟨x, hx⟩ : ∃ x, x = p / 100 * values.length := ⟨_, rfl⟩
  have hlength : (0 : ℚ) < values.length := by
    exact_mod_cast List.length_pos_iff.mpr hne
  have hxpos : 0 < x := by
    rw [hx]
    positivity
  have hxle : x ≤ values.length := by
    rw [hx]
    exact mul_le_of_le_one_left hlength.le (by linarith)
  have hrank : 1 ≤ ⌈x⌉ := Int.one_le_ceil_iff.mpr hxpos
  have hrank' : ⌈x⌉ ≤ values.length := Int.ceil_le.mpr (by exact_mod_cast hxle)
  obtain ⟨i, hi⟩ : ∃ i : ℕ, ⌈x⌉ = (i : ℤ) + 1 := ⟨(⌈x⌉ - 1).toNat, by omega⟩
  have hindex : i < values.length := by omega
  refine ⟨i, hindex, ?_, ?_, ?_⟩
  · have hclamp : max 1 (min ⌈x⌉ (values.length : ℤ)) - 1 = i := by omega
    rw [percentileNearestRank, if_neg hne, ← hx, hclamp, getItem, if_pos (by omega)]
    simp
  · have h := Int.ceil_lt_add_one x
    rw [hi] at h
    push_cast at h
    rw [← hx]
    linarith
  · have h := Int.le_ceil x
    rw [hi] at h
    rw [← hx]
    exact_mod_cast h

theorem percentileNearestRank_nil (p : ℚ) : percentileNearestRank [] p = some 0 := rfl

/-- **Nearest rank**, for every length, percentage and repetition. -/
theorem percentileNearestRank_nearest {values : List ℚ} {p : ℚ} (hne : values ≠ [])
    (hsorted : values.Pairwise (· ≤ ·)) (hpos : 0 < p) (hle : p ≤ 100) :
    ∃ v ∈ values, percentileNearestRank values p = some v ∧
      p / 100 * values.length ≤ ((values.countP fun w => decide (w ≤ v) : ℕ) : ℚ) ∧
      ((values.countP fun w => decide (w < v) : ℕ) : ℚ) < p / 100 * values.length := by
  obtain ⟨i, hi, hvalue, hlow, hhigh⟩ := percentileNearestRank_eq hne hpos hle
  exact ⟨values[i], List.getElem_mem hi, hvalue, NearestRank.nearest hsorted hi hlow hhigh⟩

theorem percentileNearestRank_mono {values : List ℚ} {p q v w : ℚ} (hne : values ≠ [])
    (hsorted : values.Pairwise (· ≤ ·)) (hpos : 0 < p) (hpq : p ≤ q) (hle : q ≤ 100)
    (hv : percentileNearestRank values p = some v) (hw : percentileNearestRank values q = some w) :
    v ≤ w := by
  obtain ⟨i, hi, hvalue, hlow, -⟩ := percentileNearestRank_eq hne hpos (hpq.trans hle)
  obtain ⟨j, hj, hvalue', -, hhigh'⟩ := percentileNearestRank_eq hne (hpos.trans_le hpq) hle
  obtain rfl := Option.some.inj (hvalue.symm.trans hv)
  obtain rfl := Option.some.inj (hvalue'.symm.trans hw)
  have hscale : p / 100 * values.length ≤ q / 100 * values.length :=
    mul_le_mul_of_nonneg_right (by linarith) (Nat.cast_nonneg _)
  have hlt : (i : ℚ) < (j + 1 : ℕ) := hlow.trans_le (hscale.trans hhigh')
  have hij : i ≤ j := Nat.le_of_lt_succ (by exact_mod_cast hlt)
  exact NearestRank.getElem_le hsorted hi hj hij

/-! ## The metrics -/

/-- There is always a percentile. -/
theorem exists_percentile (values : List ℚ) {p : ℚ} (hpos : 0 < p) (hle : p ≤ 100) :
    ∃ v, percentileNearestRank values p = some v := by
  by_cases hne : values = []
  · rw [hne]
    exact ⟨0, percentileNearestRank_nil p⟩
  · obtain ⟨i, hi, hvalue, -⟩ := percentileNearestRank_eq hne hpos hle
    exact ⟨_, hvalue⟩

/-- The mean of a list lies between its bounds. -/
theorem mean_mem {l : List ℚ} (hne : l ≠ []) {lo hi : ℚ} (hlo : ∀ w ∈ l, lo ≤ w)
    (hhi : ∀ w ∈ l, w ≤ hi) : lo ≤ l.sum / l.length ∧ l.sum / l.length ≤ hi := by
  have hlength : (0 : ℚ) < l.length := by
    exact_mod_cast List.length_pos_iff.mpr hne
  have hlow := List.card_nsmul_le_sum l lo hlo
  have hhigh := List.sum_le_card_nsmul l hi hhi
  rw [nsmul_eq_mul] at hlow hhigh
  exact ⟨(le_div_iff₀ hlength).mpr (by linarith), (div_le_iff₀ hlength).mpr (by linarith)⟩

/-- **What is computed**, in terms of the waits and the completion times. -/
theorem computeJobDurationMetrics_eq (jobs : List MeasuredJob) :
    ∃ p50 p95 p99, percentileNearestRank (sortedValues (queueWaits jobs)) 50 = some p50 ∧
      percentileNearestRank (sortedValues (queueWaits jobs)) 95 = some p95 ∧
      percentileNearestRank (sortedValues (queueWaits jobs)) 99 = some p99 ∧
      computeJobDurationMetrics jobs = some
        { completedJobsCount := jobs.countP fun job => isCompleted job.state
          averageQueueWaitSeconds :=
            if (queueWaits jobs).length ≠ 0 then (queueWaits jobs).sum / (queueWaits jobs).length
            else 0
          averageCompletionSeconds :=
            if (completionTimes jobs).length ≠ 0 then
              (completionTimes jobs).sum / (completionTimes jobs).length
            else 0
          p50QueueWaitSeconds := p50
          p95QueueWaitSeconds := p95
          p99QueueWaitSeconds := p99 } := by
  obtain ⟨p50, h50⟩ := exists_percentile (sortedValues (queueWaits jobs)) (p := 50) (by norm_num)
    (by norm_num)
  obtain ⟨p95, h95⟩ := exists_percentile (sortedValues (queueWaits jobs)) (p := 95) (by norm_num)
    (by norm_num)
  obtain ⟨p99, h99⟩ := exists_percentile (sortedValues (queueWaits jobs)) (p := 99) (by norm_num)
    (by norm_num)
  refine ⟨p50, p95, p99, h50, h95, h99, ?_⟩
  rw [computeJobDurationMetrics, foldl_addJob]
  simp only [DurationTotals.metrics, DurationTotals.ofJobs, h50, h95, h99, Option.bind_eq_bind,
    Option.bind_some]
  rfl

/-- What the metrics say about the waits that are counted. -/
structure Summarizes (waits : List ℚ) (m : JobDurationMetrics) : Prop where
  none : waits = [] → m.averageQueueWaitSeconds = 0 ∧ m.p50QueueWaitSeconds = 0 ∧
    m.p95QueueWaitSeconds = 0 ∧ m.p99QueueWaitSeconds = 0
  percentiles : ∀ lo hi, IsLeast {w | w ∈ waits} lo → IsGreatest {w | w ∈ waits} hi →
    lo ≤ m.p50QueueWaitSeconds ∧ m.p50QueueWaitSeconds ≤ m.p95QueueWaitSeconds ∧
      m.p95QueueWaitSeconds ≤ m.p99QueueWaitSeconds ∧ m.p99QueueWaitSeconds ≤ hi
  average : ∀ lo hi, IsLeast {w | w ∈ waits} lo → IsGreatest {w | w ∈ waits} hi →
    lo ≤ m.averageQueueWaitSeconds ∧ m.averageQueueWaitSeconds ≤ hi

theorem summarizes {jobs : List MeasuredJob} {m : JobDurationMetrics}
    (hm : computeJobDurationMetrics jobs = some m) : Summarizes (queueWaits jobs) m := by
  obtain ⟨p50, p95, p99, h50, h95, h99, heq⟩ := computeJobDurationMetrics_eq jobs
  obtain rfl := Option.some.inj (heq.symm.trans hm)
  have hperm := sortedValues_perm (queueWaits jobs)
  have hsorted := sortedValues_sorted (queueWaits jobs)
  refine ⟨?_, ?_, ?_⟩
  · intro hnil
    have hnone : sortedValues (queueWaits jobs) = [] := by
      rw [hnil]
      rfl
    rw [hnone, percentileNearestRank_nil, Option.some.injEq] at h50 h95 h99
    exact ⟨by simp [hnil], h50.symm, h95.symm, h99.symm⟩
  · intro lo hi hlo hhi
    have hne : sortedValues (queueWaits jobs) ≠ [] :=
      List.ne_nil_of_mem (hperm.mem_iff.mpr hlo.1)
    obtain ⟨i, hi', hvalue, -⟩ := percentileNearestRank_eq hne (p := 50) (by norm_num) (by norm_num)
    obtain ⟨j, hj, hvalue', -⟩ := percentileNearestRank_eq hne (p := 99) (by norm_num) (by norm_num)
    have hmem : p50 ∈ queueWaits jobs := by
      obtain rfl := Option.some.inj (hvalue.symm.trans h50)
      exact hperm.mem_iff.mp (List.getElem_mem hi')
    have hmem' : p99 ∈ queueWaits jobs := by
      obtain rfl := Option.some.inj (hvalue'.symm.trans h99)
      exact hperm.mem_iff.mp (List.getElem_mem hj)
    refine ⟨hlo.2 hmem, ?_, ?_, hhi.2 hmem'⟩
    · exact percentileNearestRank_mono hne hsorted (by norm_num) (by norm_num) (by norm_num) h50 h95
    · exact percentileNearestRank_mono hne hsorted (by norm_num) (by norm_num) (by norm_num) h95 h99
  · intro lo hi hlo hhi
    have hne : queueWaits jobs ≠ [] := List.ne_nil_of_mem hlo.1
    have hcount : (queueWaits jobs).length ≠ 0 := by simpa using hne
    dsimp only
    rw [if_pos hcount]
    exact mean_mem hne (fun w hw => hlo.2 hw) fun w hw => hhi.2 hw

/-- The order of the waits makes no difference. -/
theorem DurationTotals.metrics_perm (t : DurationTotals) {values : List ℚ}
    (h : t.queueWaitValues.Perm values) :
    t.metrics = ({ t with queueWaitValues := values } : DurationTotals).metrics := by
  simp only [metrics, sortedValues_eq_of_perm h]

/-- The order of the jobs makes no difference. -/
theorem computeJobDurationMetrics_perm {jobs jobs' : List MeasuredJob} (h : jobs.Perm jobs') :
    computeJobDurationMetrics jobs = computeJobDurationMetrics jobs' := by
  have hwaits : (queueWaits jobs).Perm (queueWaits jobs') := h.filterMap queueWait
  have htimes : (completionTimes jobs).Perm (completionTimes jobs') := h.filterMap completionTime
  have htotals : ({ DurationTotals.ofJobs jobs with queueWaitValues := queueWaits jobs' } :
      DurationTotals) = .ofJobs jobs' := by
    simp only [DurationTotals.ofJobs, hwaits.sum_eq, htimes.sum_eq, hwaits.length_eq,
      htimes.length_eq, h.countP_eq]
  rw [computeJobDurationMetrics, computeJobDurationMetrics, foldl_addJob, foldl_addJob,
    DurationTotals.metrics_perm _ hwaits, htotals]

/-- **Duration percentiles are nearest ranks**, in order between the least and the greatest
wait, and the same in whatever order the jobs come. -/
theorem durations_sound :
    (∀ (values : List ℚ) (p : ℚ), values ≠ [] → values.Pairwise (· ≤ ·) → 0 < p → p ≤ 100 →
      ∃ v ∈ values, percentileNearestRank values p = some v ∧
        p / 100 * values.length ≤ ((values.countP fun w => decide (w ≤ v) : ℕ) : ℚ) ∧
        ((values.countP fun w => decide (w < v) : ℕ) : ℚ) < p / 100 * values.length) ∧
    (∀ jobs, ∃ m, computeJobDurationMetrics jobs = some m ∧ Summarizes (queueWaits jobs) m) ∧
    ∀ jobs jobs' : List MeasuredJob, jobs.Perm jobs' →
      computeJobDurationMetrics jobs = computeJobDurationMetrics jobs' := by
  refine ⟨fun values p hne hsorted hpos hle => percentileNearestRank_nearest hne hsorted hpos hle,
    ?_, fun jobs jobs' => computeJobDurationMetrics_perm⟩
  intro jobs
  obtain ⟨p50, p95, p99, -, -, -, hm⟩ := computeJobDurationMetrics_eq jobs
  exact ⟨_, hm, summarizes hm⟩

/-- Repeated values, and two orders of two jobs. -/
theorem durations_sound_repeated :
    (∃ v ∈ [(1 : ℚ), 1, 2, 3], percentileNearestRank [1, 1, 2, 3] 50 = some v ∧
      50 / 100 * (([1, 1, 2, 3] : List ℚ).length : ℚ) ≤
        (([1, 1, 2, 3].countP fun w => decide (w ≤ v) : ℕ) : ℚ) ∧
      (([1, 1, 2, 3].countP fun w => decide (w < v) : ℕ) : ℚ) <
        50 / 100 * (([1, 1, 2, 3] : List ℚ).length : ℚ)) ∧
    computeJobDurationMetrics [{ state := .str "succeeded", createdAt := .int 1 }, {}] =
      computeJobDurationMetrics [{}, { state := .str "succeeded", createdAt := .int 1 }] :=
  ⟨durations_sound.1 [1, 1, 2, 3] 50 (by simp) (by norm_num) (by norm_num) (by norm_num),
    durations_sound.2.2 _ _ (List.Perm.swap _ _ _)⟩

end KernelQ.ControlPlane
