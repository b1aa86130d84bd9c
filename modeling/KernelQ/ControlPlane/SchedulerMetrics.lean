import Mathlib.Data.Rat.Defs
import KernelQ.ControlPlane.SchedulerConservation
import KernelQ.Foundation.Tally

/-!
# Metrics of the composed scheduler

`scheduler_metrics.py`, over exact numbers. What the metrics hold is a function of what has been
recorded (`recordAll_eq`): counts of records of each kind, and tallies over the dispatches. A
harness records every reply of the scheduler (`recordings`).
-/

namespace KernelQ.ControlPlane.SchedulerComposed

open KernelQ.Foundation

structure SchedulerMetrics where
  enqueueAcceptedCount : ℕ := 0
  enqueueRejectedFullCount : ℕ := 0
  enqueueRejectedInvalidCount : ℕ := 0
  dispatchCountTotal : ℕ := 0
  dispatchCountByTenant : Tally String ℕ := .empty
  dispatchCountByPriority : Tally ℤ ℕ := .empty
  totalQueueWaitTime : ℤ := 0
  totalQueueWaitTimeByTenant : Tally String ℤ := .empty
  totalQueueWaitTimeByPriority : Tally ℤ ℤ := .empty
  queueDepthPeak : ℤ := 0

namespace SchedulerMetrics

def recordEnqueueResult (m : SchedulerMetrics) : EnqueueStatus → SchedulerMetrics
  | .accepted => { m with enqueueAcceptedCount := m.enqueueAcceptedCount + 1 }
  | .rejectedFull => { m with enqueueRejectedFullCount := m.enqueueRejectedFullCount + 1 }
  | .rejectedInvalid =>
      { m with enqueueRejectedInvalidCount := m.enqueueRejectedInvalidCount + 1 }

def recordDispatch (m : SchedulerMetrics) (job : Job) (dispatchTime : ℤ) : SchedulerMetrics :=
  let waitTime := dispatchTime - job.createdAt
  { m with
    dispatchCountTotal := m.dispatchCountTotal + 1
    dispatchCountByTenant := m.dispatchCountByTenant.add job.tenantId 1
    dispatchCountByPriority := m.dispatchCountByPriority.add job.priority 1
    totalQueueWaitTime := m.totalQueueWaitTime + waitTime
    totalQueueWaitTimeByTenant := m.totalQueueWaitTimeByTenant.add job.tenantId waitTime
    totalQueueWaitTimeByPriority := m.totalQueueWaitTimeByPriority.add job.priority waitTime }

def averageQueueWaitTime (m : SchedulerMetrics) : ℚ :=
  if m.dispatchCountTotal = 0 then 0 else m.totalQueueWaitTime / m.dispatchCountTotal

/-- The averages of one dimension: the loop over the counts. -/
def averages {κ : Type} [DecidableEq κ] (counts : Tally κ ℕ) (waits : Tally κ ℤ) : Tally κ ℚ :=
  counts.mapValues fun k (dispatchCount : ℕ) =>
    if dispatchCount = 0 then 0 else waits.get k / dispatchCount

def averageQueueWaitTimeByTenant (m : SchedulerMetrics) : Tally String ℚ :=
  averages m.dispatchCountByTenant m.totalQueueWaitTimeByTenant

def averageQueueWaitTimeByPriority (m : SchedulerMetrics) : Tally ℤ ℚ :=
  averages m.dispatchCountByPriority m.totalQueueWaitTimeByPriority

def observeQueueDepth (m : SchedulerMetrics) (depth : ℤ) : Except PyException SchedulerMetrics :=
  if depth < 0 then .error (valueError "depth must not be negative")
  else if m.queueDepthPeak < depth then .ok { m with queueDepthPeak := depth }
  else .ok m

end SchedulerMetrics

/-! ## Recordings -/

/-- A call that records something. -/
inductive Recording
  | enqueueResult (status : EnqueueStatus)
  | dispatch (job : Job) (dispatchTime : ℤ)
  | queueDepth (depth : ℤ)
  deriving DecidableEq

namespace Recording

def dispatch? : Recording → Option (Job × ℤ)
  | .dispatch job dispatchTime => some (job, dispatchTime)
  | _ => none

def depth? : Recording → Option ℤ
  | .queueDepth depth => some depth
  | _ => none

end Recording

/-- The dispatches among the records, with their times. -/
def dispatches (recs : List Recording) : List (Job × ℤ) := recs.filterMap Recording.dispatch?

def depths (recs : List Recording) : List ℤ := recs.filterMap Recording.depth?

theorem dispatches_concat (recs : List Recording) (r : Recording) :
    dispatches (recs ++ [r]) = dispatches recs ++ r.dispatch?.toList := by
  rw [dispatches, List.filterMap_append]
  cases r <;> rfl

theorem depths_concat (recs : List Recording) (r : Recording) :
    depths (recs ++ [r]) = depths recs ++ r.depth?.toList := by
  rw [depths, List.filterMap_append]
  cases r <;> rfl

def waitTime (d : Job × ℤ) : ℤ := d.2 - d.1.createdAt

namespace SchedulerMetrics

def record (m : SchedulerMetrics) : Recording → Except PyException SchedulerMetrics
  | .enqueueResult status => .ok (m.recordEnqueueResult status)
  | .dispatch job dispatchTime => .ok (m.recordDispatch job dispatchTime)
  | .queueDepth depth => m.observeQueueDepth depth

def recordAll (m : SchedulerMetrics) (recs : List Recording) :
    Except PyException SchedulerMetrics :=
  recs.foldlM record m

/-- The metrics of these records. -/
def ofRecordings (recs : List Recording) : SchedulerMetrics where
  enqueueAcceptedCount := recs.count (.enqueueResult .accepted)
  enqueueRejectedFullCount := recs.count (.enqueueResult .rejectedFull)
  enqueueRejectedInvalidCount := recs.count (.enqueueResult .rejectedInvalid)
  dispatchCountTotal := (dispatches recs).length
  dispatchCountByTenant := .ofList ((dispatches recs).map fun d => (d.1.tenantId, 1))
  dispatchCountByPriority := .ofList ((dispatches recs).map fun d => (d.1.priority, 1))
  totalQueueWaitTime := ((dispatches recs).map waitTime).sum
  totalQueueWaitTimeByTenant :=
    .ofList ((dispatches recs).map fun d => (d.1.tenantId, waitTime d))
  totalQueueWaitTimeByPriority :=
    .ofList ((dispatches recs).map fun d => (d.1.priority, waitTime d))
  queueDepthPeak := (depths recs).foldl max 0

/-- A record adds itself, unless it raises. -/
theorem record_ofRecordings_eq_ok_iff {recs : List Recording} {r : Recording}
    {m : SchedulerMetrics} :
    (ofRecordings recs).record r = .ok m ↔
      (∀ depth ∈ r.depth?, 0 ≤ depth) ∧ ofRecordings (recs ++ [r]) = m := by
  cases r with
  | enqueueResult status =>
      have hadd : (ofRecordings recs).recordEnqueueResult status =
          ofRecordings (recs ++ [.enqueueResult status]) := by
        cases status <;>
          simp [recordEnqueueResult, ofRecordings, dispatches_concat, depths_concat,
            Recording.dispatch?, Recording.depth?, List.count_append]
      rw [record, hadd]
      simp [Recording.depth?]
  | dispatch job dispatchTime =>
      have hadd : (ofRecordings recs).recordDispatch job dispatchTime =
          ofRecordings (recs ++ [.dispatch job dispatchTime]) := by
        simp [recordDispatch, ofRecordings, dispatches_concat, depths_concat,
          Recording.dispatch?, Recording.depth?, List.count_append, Tally.ofList_concat, waitTime]
      rw [record, hadd]
      simp [Recording.depth?]
  | queueDepth depth =>
      have hadd : ofRecordings (recs ++ [.queueDepth depth]) =
          { ofRecordings recs with
            queueDepthPeak := max (ofRecordings recs).queueDepthPeak depth } := by
        simp [ofRecordings, dispatches_concat, depths_concat, Recording.dispatch?,
          Recording.depth?, List.count_append]
      rw [record, observeQueueDepth, hadd]
      by_cases hneg : depth < 0
      · simp [hneg, Recording.depth?]
      · by_cases hpeak : (ofRecordings recs).queueDepthPeak < depth
        · simp [hneg, hpeak, max_eq_right hpeak.le, not_lt.mp hneg, Recording.depth?]
        · simp [hneg, hpeak, max_eq_left (not_lt.mp hpeak), not_lt.mp hneg, Recording.depth?]

theorem recordAll_concat (m : SchedulerMetrics) (recs : List Recording) (r : Recording) :
    m.recordAll (recs ++ [r]) = m.recordAll recs >>= fun m => m.record r := by
  rw [recordAll, List.foldlM_append]
  apply congrArg (m.recordAll recs >>= ·)
  ext m
  exact bind_pure (m.record r)

/-- **The metrics** are those of what has been recorded. -/
theorem recordAll_eq_ok_iff {recs : List Recording} {m : SchedulerMetrics} :
    recordAll {} recs = .ok m ↔ (∀ depth ∈ depths recs, 0 ≤ depth) ∧ ofRecordings recs = m := by
  induction recs using List.reverseRecOn generalizing m with
  | nil =>
      have hnil : recordAll {} [] = .ok (ofRecordings []) := rfl
      rw [hnil, Except.ok.injEq]
      exact (and_iff_right (by simp [depths])).symm
  | append_singleton recs r ih =>
      have hbind : recordAll {} (recs ++ [r]) = .ok m ↔
          ∃ m', recordAll {} recs = .ok m' ∧ m'.record r = .ok m := by
        rw [recordAll_concat]
        cases recordAll {} recs with
        | error e => simp [bind, Except.bind]
        | ok m' => simp [bind, Except.bind]
      have hdepths : (∀ depth ∈ depths (recs ++ [r]), 0 ≤ depth) ↔
          (∀ depth ∈ depths recs, 0 ≤ depth) ∧ ∀ depth ∈ r.depth?, 0 ≤ depth := by
        rw [depths_concat]
        simp only [List.mem_append, Option.mem_toList, or_imp, forall_and, Option.mem_def]
      rw [hbind, hdepths]
      constructor
      · rintro ⟨m', hm', hm⟩
        obtain ⟨hrecs, rfl⟩ := ih.mp hm'
        obtain ⟨hr, rfl⟩ := record_ofRecordings_eq_ok_iff.mp hm
        exact ⟨⟨hrecs, hr⟩, rfl⟩
      · rintro ⟨⟨hrecs, hr⟩, rfl⟩
        exact ⟨_, ih.mpr ⟨hrecs, rfl⟩, record_ofRecordings_eq_ok_iff.mpr ⟨hr, rfl⟩⟩

end SchedulerMetrics

/-! ## What the aggregates have to do with one another -/

/-- The counts, waits and averages of one dimension against the totals. -/
structure Consistent {κ : Type} [DecidableEq κ] (count : ℕ) (wait : ℤ) (counts : Tally κ ℕ)
    (waits : Tally κ ℤ) (averages : Tally κ ℚ) : Prop where
  count : count = counts.values.sum
  wait : wait = waits.values.sum
  keys : counts.keys = waits.keys
  averageKeys : averages.keys = counts.keys
  average : ∀ k average, averages.lookup k = some average → average * counts.get k = waits.get k

/-- Every dimension of the dispatches is consistent. -/
theorem consistent_ofList {κ : Type} [DecidableEq κ] (key : Job × ℤ → κ) (ds : List (Job × ℤ)) :
    Consistent ds.length (ds.map waitTime).sum (.ofList (ds.map fun d => (key d, 1)))
      (.ofList (ds.map fun d => (key d, waitTime d)))
      (SchedulerMetrics.averages (.ofList (ds.map fun d => (key d, 1)))
        (.ofList (ds.map fun d => (key d, waitTime d)))) where
  count := by
    rw [Tally.sum_values_ofList, List.map_map]
    simp [Function.comp_def]
  wait := by
    rw [Tally.sum_values_ofList, List.map_map]
    rfl
  keys := Tally.keys_ofList_congr key _ _ ds
  averageKeys := Tally.keys_mapValues _ _
  average := by
    intro k average h
    rw [SchedulerMetrics.averages, Tally.lookup_mapValues, Option.map_eq_some_iff] at h
    obtain ⟨n, hn, rfl⟩ := h
    have hpos : n ≠ 0 := by
      rw [← Tally.get_eq_of_lookup hn, Tally.get_ofList_map]
      have hmem := Tally.mem_keys_ofList_iff.mp (Tally.mem_keys_iff.mpr ⟨n, hn⟩)
      obtain ⟨e, he, rfl⟩ := List.mem_map.mp hmem
      obtain ⟨d, hd, rfl⟩ := List.mem_map.mp he
      have hne : ds.filter (fun d' => decide (key d' = key d)) ≠ [] :=
        List.ne_nil_of_mem (List.mem_filter.mpr ⟨hd, decide_eq_true rfl⟩)
      simpa using hne
    rw [if_neg hpos, Tally.get_eq_of_lookup hn]
    exact div_mul_cancel₀ _ (Nat.cast_ne_zero.mpr hpos)

/-- The same maps, whatever the order of their keys. -/
structure SameMaps (m m' : SchedulerMetrics) : Prop where
  countByTenant : ∀ t, m.dispatchCountByTenant.lookup t = m'.dispatchCountByTenant.lookup t
  countByPriority : ∀ p, m.dispatchCountByPriority.lookup p = m'.dispatchCountByPriority.lookup p
  waitByTenant :
    ∀ t, m.totalQueueWaitTimeByTenant.lookup t = m'.totalQueueWaitTimeByTenant.lookup t
  waitByPriority :
    ∀ p, m.totalQueueWaitTimeByPriority.lookup p = m'.totalQueueWaitTimeByPriority.lookup p
  averageByTenant :
    ∀ t, m.averageQueueWaitTimeByTenant.lookup t = m'.averageQueueWaitTimeByTenant.lookup t
  averageByPriority :
    ∀ p, m.averageQueueWaitTimeByPriority.lookup p = m'.averageQueueWaitTimeByPriority.lookup p

/-- The averages of one dimension depend on its maps only. -/
theorem averages_congr {κ : Type} [DecidableEq κ] {counts counts' : Tally κ ℕ}
    {waits waits' : Tally κ ℤ} (hcounts : ∀ k, counts.lookup k = counts'.lookup k)
    (hwaits : ∀ k, waits.lookup k = waits'.lookup k) (k : κ) :
    (SchedulerMetrics.averages counts waits).lookup k =
      (SchedulerMetrics.averages counts' waits').lookup k := by
  rw [SchedulerMetrics.averages, SchedulerMetrics.averages, Tally.lookup_mapValues,
    Tally.lookup_mapValues, hcounts, Tally.get, Tally.get, hwaits]

/-- **The order of the dispatches** makes no difference to the maps. -/
theorem sameMaps_of_perm {recs recs' : List Recording}
    (h : (dispatches recs).Perm (dispatches recs')) :
    SameMaps (.ofRecordings recs) (.ofRecordings recs') := by
  have htallies : ∀ {κ M : Type} [DecidableEq κ] [AddCommMonoid M] (e : Job × ℤ → κ × M) (k : κ),
      (Tally.ofList ((dispatches recs).map e)).lookup k =
        (Tally.ofList ((dispatches recs').map e)).lookup k :=
    fun e k => Tally.lookup_ofList_perm (h.map e) k
  exact
    { countByTenant := htallies _
      countByPriority := htallies _
      waitByTenant := htallies _
      waitByPriority := htallies _
      averageByTenant := averages_congr (htallies _) (htallies _)
      averageByPriority := averages_congr (htallies _) (htallies _) }

/-! ## Runs of the scheduler -/

/-- What is recorded of a reply; `dispatchTime` is for a job that has been dequeued. -/
def recordingOf (dispatchTime : ℤ) :
    SchedulerCall Job × SchedulerReply Job EnqueueResult → Option Recording
  | (.enqueue _, .enqueued result) => some (.enqueueResult result.status)
  | (.dequeue, .job (some job)) => some (.dispatch job dispatchTime)
  | (.size, .size n) => some (.queueDepth n)
  | _ => none

/-- A reply is recorded as an accepted job exactly if it accepts one. -/
theorem count_recordingOf (dispatchTime : ℤ)
    (e : SchedulerCall Job × SchedulerReply Job EnqueueResult) :
    (recordingOf dispatchTime e).toList.count (.enqueueResult .accepted) =
      (accepted [e]).length := by
  obtain ⟨c, reply⟩ := e
  cases c with
  | enqueue job =>
      cases reply with
      | enqueued result =>
          obtain ⟨status, message⟩ := result
          cases status <;> rfl
      | _ => rfl
  | dequeue =>
      cases reply with
      | job job => cases job <;> rfl
      | _ => rfl
  | peek => cases reply <;> rfl
  | size => cases reply <;> rfl

/-- A reply is recorded as a dispatch exactly if it hands out a job. -/
theorem dispatches_recordingOf (dispatchTime : ℤ)
    (e : SchedulerCall Job × SchedulerReply Job EnqueueResult) :
    (dispatches (recordingOf dispatchTime e).toList).map Prod.fst = dequeued [e] := by
  obtain ⟨c, reply⟩ := e
  cases c with
  | enqueue job => cases reply <;> rfl
  | dequeue =>
      cases reply with
      | job job => cases job <;> rfl
      | _ => rfl
  | peek => cases reply <;> rfl
  | size => cases reply <;> rfl

/-- The only depth recorded is the reply to `size`. -/
theorem eq_size_of_mem_depths {dispatchTime depth : ℤ}
    {e : SchedulerCall Job × SchedulerReply Job EnqueueResult}
    (h : depth ∈ depths (recordingOf dispatchTime e).toList) :
    ∃ n : ℕ, e = (.size, .size n) ∧ depth = n := by
  obtain ⟨c, reply⟩ := e
  cases c with
  | enqueue job =>
      cases reply <;> cases h
  | dequeue =>
      cases reply with
      | job job => cases job <;> cases h
      | _ => cases h
  | peek => cases reply <;> cases h
  | size =>
      cases reply with
      | size n => exact ⟨n, rfl, List.mem_singleton.mp h⟩
      | _ => cases h

namespace ComposedScheduler

variable {repr : String → String} {capacity : ℤ} {weights : WeightMap} {s s₀ : ComposedScheduler}

variable (repr) in
/-- The records of a run, where every call has a dispatch time. -/
def recordings : ComposedScheduler → List (SchedulerCall Job × ℤ) → List Recording
  | _, [] => []
  | s, (c, dispatchTime) :: cs =>
      (recordingOf dispatchTime (c, (s.call repr c).2)).toList ++ recordings (s.call repr c).1 cs

theorem count_accepted_recordings (cs : List (SchedulerCall Job × ℤ)) :
    (recordings repr s cs).count (.enqueueResult .accepted) =
      (accepted ((service repr).dialogue s (cs.map Prod.fst))).length := by
  induction cs generalizing s with
  | nil => rfl
  | cons e cs ih =>
      obtain ⟨c, dispatchTime⟩ := e
      have hsplit := accepted_append [(c, (s.call repr c).2)]
        ((service repr).dialogue (s.call repr c).1 (cs.map Prod.fst))
      rw [recordings, List.count_append, count_recordingOf, ih, ← List.length_append, ← hsplit]
      rfl

theorem dispatches_recordings (cs : List (SchedulerCall Job × ℤ)) :
    (dispatches (recordings repr s cs)).map Prod.fst =
      dequeued ((service repr).dialogue s (cs.map Prod.fst)) := by
  induction cs generalizing s with
  | nil => rfl
  | cons e cs ih =>
      obtain ⟨c, dispatchTime⟩ := e
      rw [recordings, dispatches, List.filterMap_append, List.map_append, List.map_cons,
        Service.dialogue, ← List.singleton_append, dequeued_append, ← ih]
      exact congrArg (· ++ _) (dispatches_recordingOf dispatchTime (c, (s.call repr c).2))

variable (repr) in
/-- A recorded size lies within the capacity. -/
theorem depths_recordings (hs : Inv weights s) (cs : List (SchedulerCall Job × ℤ)) :
    ∀ depth ∈ depths (recordings repr s cs), 0 ≤ depth ∧ depth ≤ s.capacity := by
  induction cs generalizing s with
  | nil =>
      intro depth h
      cases h
  | cons e cs ih =>
      obtain ⟨c, dispatchTime⟩ := e
      intro depth h
      rw [recordings, depths, List.filterMap_append] at h
      rcases List.mem_append.mp h with h | h
      · obtain ⟨n, hsize, rfl⟩ := eq_size_of_mem_depths h
        obtain ⟨rfl, hreply⟩ := Prod.mk.inj hsize
        obtain rfl := SchedulerReply.size.inj hreply
        exact ⟨Int.natCast_nonneg _, hs.bounded⟩
      · rw [← capacity_call hs c]
        exact ih (inv_call repr hs c) depth h

variable (repr) in
/-- What the metrics `m` of a run from `s₀` say about the scheduler, and about one another. -/
structure Aggregates (capacity : ℤ) (s₀ : ComposedScheduler) (cs : List (SchedulerCall Job × ℤ))
    (m : SchedulerMetrics) : Prop where
  conserved : m.enqueueAcceptedCount =
    m.dispatchCountTotal + ((service repr).after s₀ (cs.map Prod.fst)).queues.size
  peak : m.queueDepthPeak ≤ capacity
  byTenant : Consistent m.dispatchCountTotal m.totalQueueWaitTime m.dispatchCountByTenant
    m.totalQueueWaitTimeByTenant m.averageQueueWaitTimeByTenant
  byPriority : Consistent m.dispatchCountTotal m.totalQueueWaitTime m.dispatchCountByPriority
    m.totalQueueWaitTimeByPriority m.averageQueueWaitTimeByPriority
  average : m.averageQueueWaitTime * m.dispatchCountTotal = m.totalQueueWaitTime
  order : ∀ recs m', (dispatches recs).Perm (dispatches (recordings repr s₀ cs)) →
    SchedulerMetrics.recordAll {} recs = .ok m' → SameMaps m' m

/-- The average of all dispatches. -/
theorem averageQueueWaitTime_mul (recs : List Recording) :
    (SchedulerMetrics.ofRecordings recs).averageQueueWaitTime *
        (SchedulerMetrics.ofRecordings recs).dispatchCountTotal =
      (SchedulerMetrics.ofRecordings recs).totalQueueWaitTime := by
  rw [SchedulerMetrics.averageQueueWaitTime]
  split
  · rename_i hzero
    have hnil : dispatches recs = [] := List.length_eq_zero_iff.mp hzero
    simp [SchedulerMetrics.ofRecordings, hnil]
  · rename_i hne
    exact div_mul_cancel₀ _ (Nat.cast_ne_zero.mpr hne)

/-- The peak is one of the depths, or 0. -/
theorem peak_le {recs : List Recording} (hcapacity : 0 ≤ capacity)
    (h : ∀ depth ∈ depths recs, depth ≤ capacity) :
    (SchedulerMetrics.ofRecordings recs).queueDepthPeak ≤ capacity := by
  apply List.foldlRecOn (motive := fun peak => peak ≤ capacity) _ _ hcapacity
  intro peak hpeak depth hdepth
  exact max_le hpeak (h depth hdepth)

/-- **The metrics of a run** are consistent aggregates. -/
theorem metrics_consistent (hinit : init repr capacity weights = .ok s₀)
    (cs : List (SchedulerCall Job × ℤ)) :
    ∃ m, SchedulerMetrics.recordAll {} (recordings repr s₀ cs) = .ok m ∧
      Aggregates repr capacity s₀ cs m := by
  obtain ⟨hinv, hcapacity, -⟩ := inv_init hinit
  obtain ⟨hpos, -⟩ := eq_of_init hinit
  have hdepths := depths_recordings repr hinv cs
  refine ⟨_, SchedulerMetrics.recordAll_eq_ok_iff.mpr ⟨fun depth h => (hdepths depth h).1, rfl⟩, ?_⟩
  exact
    { conserved := by
        have hsound := sound hinit (cs.map Prod.fst)
        have hcard := congrArg Multiset.card hsound.conserved
        rw [Multiset.card_add, Multiset.coe_card, Multiset.coe_card, Multiset.coe_card,
          ← count_accepted_recordings, ← dispatches_recordings, List.length_map,
          ← hsound.size] at hcard
        exact hcard
      peak := peak_le hpos.le fun depth h => hcapacity ▸ (hdepths depth h).2
      byTenant := consistent_ofList (fun d => d.1.tenantId) _
      byPriority := consistent_ofList (fun d => d.1.priority) _
      average := averageQueueWaitTime_mul _
      order := by
        intro recs m' hperm hm'
        obtain ⟨-, rfl⟩ := SchedulerMetrics.recordAll_eq_ok_iff.mp hm'
        exact sameMaps_of_perm hperm }

/-- A job is queued and dispatched, and the size is observed in between. -/
theorem metrics_consistent_twoToOne :
    ∃ s₀, init (fun t => t) 1 .twoToOne = .ok s₀ ∧
      ∃ m, SchedulerMetrics.recordAll {} (recordings (fun t => t) s₀
          [(.enqueue ⟨"job", "tenant-a", 5, 3⟩, 0), (.size, 0), (.dequeue, 10)]) = .ok m ∧
        Aggregates (fun t => t) 1 s₀
          [(.enqueue ⟨"job", "tenant-a", 5, 3⟩, 0), (.size, 0), (.dequeue, 10)] m := by
  have hinit := init_eq_ok (show initError (fun t => t) 1 .twoToOne = none by decide +kernel)
  exact ⟨_, hinit, metrics_consistent hinit _⟩

end ComposedScheduler

end KernelQ.ControlPlane.SchedulerComposed
