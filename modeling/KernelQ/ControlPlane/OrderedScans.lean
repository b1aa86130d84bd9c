import KernelQ.Foundation.Draining
import KernelQ.ControlPlane.JobRepository

/-!
# Scans and claims, batch after batch

`requeue_due_retries` and `claim_schedulable_jobs` select in a subquery, update, and sort
what `RETURNING` gives back. With no row locked each call takes the best rows of the due,
or of the queued, out of the table (`Batch`), so calls in a row drain them in order.
-/

namespace KernelQ.ControlPlane

open KernelQ.Foundation

/-- No other transaction holds a lock. -/
def Executor.Unlocked (E : Executor) : Prop :=
  ∀ jobId, E.locked jobId = false

namespace JobRepository

variable {T T' : Jobs} {E : Executor} {now stamp limit : ℤ}

/-! ## Calls in a row -/

/-- Call `i` of a loop, on the table that the calls before it have left. -/
def repeated {α : Type} (call : ℕ → Jobs → Except PyException (Jobs × α)) (T : Jobs) :
    ℕ → Except PyException (Jobs × α)
  | 0 => call 0 T
  | i + 1 => do
      let (T', _) ← repeated call T i
      call (i + 1) T'

/-- **Calls that each take a batch** drain the table. -/
theorem exists_drain {α : Type} (call : ℕ → Jobs → Except PyException (Jobs × α))
    (K : SortKey JobRow) (n : ℕ) (p : JobRow → Bool) (out : ℕ → List JobRow → α)
    (hcall : ∀ i T, ∃ (T' : Jobs) (taken : List JobRow), call i T = .ok (T', out i taken) ∧
      K.Batch n (T.rows.filter p) taken (T'.rows.filter p)) (T : Jobs) :
    ∃ (tables : ℕ → Jobs) (taken : ℕ → List JobRow), tables 0 = T ∧
      K.Drain n (fun i => (tables i).rows.filter p) taken ∧
      ∀ i, repeated call T i = .ok (tables (i + 1), out i (taken i)) := by
  choose next taken hnext using hcall
  let tables : ℕ → Jobs := fun i => Nat.rec T (fun i T => next i T) i
  refine ⟨tables, fun i => taken i (tables i), rfl, fun i => (hnext i (tables i)).2, ?_⟩
  intro i
  induction i with
  | zero => exact (hnext 0 T).1
  | succ i ih =>
      rw [repeated, ih]
      exact (hnext (i + 1) (tables (i + 1))).1

/-! ## Retry scans -/

/-- A row in `retry_scheduled` with a `retry_after` of at most `now`. -/
abbrev Due (now : ℤ) (r : JobRow) : Prop :=
  r.state = JobState.retryScheduled.value ∧ ∃ τ ∈ r.retryAfter, τ ≤ now

def due (T : Jobs) (now : ℤ) : List JobRow :=
  T.rows.filter fun r => decide (Due now r)

/-- `(retry_after, created_at)` of `a` is before that of `b`. -/
def DueBefore (a b : JobRow) : Prop :=
  ∃ τ τ', a.retryAfter = some τ ∧ b.retryAfter = some τ' ∧
    (τ < τ' ∨ τ = τ' ∧ a.createdAt < b.createdAt)

/-- A scan moves the first `limit` due rows, returns their ids in order, and changes
nothing else. -/
def ScanTakes (T : Jobs) (E : Executor) (stamp now limit : ℤ) : Prop :=
  ∃ (T' : Jobs) (moved : List JobRow),
    requeueDueRetries T E stamp now limit = .ok (T', moved.map JobRow.jobId) ∧
    (∀ r ∈ moved, r ∈ due T now) ∧ (moved.map JobRow.jobId).Nodup ∧
    moved.length = min limit.toNat (due T now).length ∧
    (∀ r ∈ moved, ∀ r' ∈ due T now, r' ∉ moved → ¬ DueBefore r' r) ∧
    moved.Pairwise (fun a b => ¬ DueBefore b a) ∧
    T'.rows = T.rows.map fun r =>
      if r.jobId ∈ moved.map JobRow.jobId
      then { r with state := JobState.queued.value, updatedAt := stamp } else r

/-- Scans in a row return every due row once, the last non-empty list being that of the
scan before number `⌈d / limit⌉`; and in order, if no two due rows tie. -/
def ScansDrain (T : Jobs) (E : ℕ → Executor) (stamp : ℕ → ℤ) (now limit : ℤ) : Prop :=
  ∃ (tables : ℕ → Jobs) (ids : ℕ → List String),
    let calls := (due T now).length ⌈/⌉ limit.toNat
    (∀ i, repeated (fun i T => requeueDueRetries T (E i) (stamp i) now limit) T i =
      .ok (tables i, ids i)) ∧
    (∀ i, ids i = [] ↔ calls ≤ i) ∧
    ((List.range calls).flatMap ids).Perm ((due T now).map JobRow.jobId) ∧
    ((due T now).Pairwise (fun a b => (a.retryAfter, a.createdAt) ≠ (b.retryAfter, b.createdAt)) →
      ∃ rows : List JobRow, rows.Perm (due T now) ∧ rows.Pairwise DueBefore ∧
        (List.range calls).flatMap ids = rows.map JobRow.jobId)

theorem due_eq_filter (T : Jobs) (now : ℤ) : due T now = T.rows.filter (isDue now) := by
  refine List.filter_congr fun r _ => ?_
  rw [Bool.eq_iff_iff, isDue_iff, decide_eq_true_iff]
  rfl

theorem dueOrder_le_iff {a b : JobRow} (ha : isDue now a = true) (hb : isDue now b = true) :
    dueOrder.le a b = true ↔ ¬ DueBefore b a := by
  obtain ⟨-, τ, hτ, -⟩ := isDue_iff.mp ha
  obtain ⟨-, τ', hτ', -⟩ := isDue_iff.mp hb
  simp only [dueOrder, SortKey.lexicographic, DueBefore, hτ, hτ', decide_eq_true_eq,
    Option.getD_some, Option.some.injEq, exists_and_left, exists_eq_left']
  omega

theorem isDue_of_mem_due {r : JobRow} (h : r ∈ due T now) : isDue now r = true := by
  rw [due_eq_filter] at h
  exact (List.mem_filter.mp h).2

theorem separates_due (h : (due T now).Pairwise fun a b =>
    (a.retryAfter, a.createdAt) ≠ (b.retryAfter, b.createdAt)) :
    dueOrder.Separates (due T now) := by
  apply SortKey.separates_of_pairwise h
  intro a ha b hb hab hba
  obtain ⟨-, τ, hτ, -⟩ := isDue_iff.mp (isDue_of_mem_due ha)
  obtain ⟨-, τ', hτ', -⟩ := isDue_iff.mp (isDue_of_mem_due hb)
  simp only [dueOrder, SortKey.lexicographic, hτ, hτ', decide_eq_true_eq,
    Option.getD_some] at hab hba
  rw [hτ, hτ', Prod.mk.injEq, Option.some.injEq]
  omega

/-- **A scan takes a batch** of the due rows. -/
theorem requeueDueRetries_batch (T : Jobs) (hE : E.Unlocked) (stamp now : ℤ) (hlimit : 0 < limit) :
    ∃ (T' : Jobs) (taken : List JobRow),
      requeueDueRetries T E stamp now limit = .ok (T', taken.map JobRow.jobId) ∧
      dueOrder.Batch limit.toNat (due T now) taken (due T' now) ∧
      T'.rows = T.rows.map fun r =>
        if r.jobId ∈ taken.map JobRow.jobId
        then { r with state := JobState.queued.value, updatedAt := stamp } else r := by
  have hsel : dueRows T E now limit.toNat =
      dueOrder.selectTop E.rank limit.toNat (T.rows.filter (isDue now)) := by
    simp only [dueRows, hE _, Bool.not_false, Bool.and_true]
  have hleave : ∀ r, isDue now ((setState JobState.queued.value stamp).set r) = false := by
    intro r
    show (decide (JobState.queued.value = JobState.retryScheduled.value) && _) = false
    rw [decide_eq_false (by decide), Bool.false_and]
  obtain ⟨taken, hbatch, hperm, hsorted⟩ :=
    SortKey.batch_of_update T hleave (fun _ _ => rfl) hsel (E.returning_perm _)
  rw [← due_eq_filter, ← due_eq_filter] at hbatch
  refine ⟨_, taken, ?_, hbatch, ?_⟩
  · rw [requeueDueRetries, if_neg (not_le.mpr hlimit)]
    dsimp only
    rw [hsorted, List.map_map]
    rfl
  · rw [KeyedTable.update]
    apply List.map_congr_left
    intro r _
    simp only [decide_eq_true_eq, (hperm.map JobRow.jobId).mem_iff]
    rfl

theorem scanTakes (T : Jobs) (hE : E.Unlocked) (stamp now : ℤ) (hlimit : 0 < limit) :
    ScanTakes T E stamp now limit := by
  obtain ⟨T', taken, hcall, hbatch, hrows⟩ := requeueDueRetries_batch T hE stamp now hlimit
  have hdue : ∀ r ∈ taken, r ∈ due T now := fun r hr => hbatch.mem_of_taken hr
  have hnodup : taken.Nodup :=
    ((hbatch.perm.nodup_iff).mpr (T.nodup_rows.filter _)).of_append_left
  refine ⟨T', taken, hcall, hdue, ?_, hbatch.length, ?_, ?_, hrows⟩
  · exact T.nodup_map_key hnodup fun r hr => List.mem_of_mem_filter (hdue r hr)
  · intro r hr r' hr' hnot
    have hrest : r' ∈ due T' now :=
      (List.mem_append.mp (hbatch.perm.mem_iff.mpr hr')).resolve_left hnot
    exact (dueOrder_le_iff (isDue_of_mem_due (hdue r hr)) (isDue_of_mem_due hr')).mp
      (hbatch.best r hr r' hrest)
  · apply hbatch.sorted.imp_of_mem
    intro a b ha hb hle
    exact (dueOrder_le_iff (isDue_of_mem_due (hdue a ha)) (isDue_of_mem_due (hdue b hb))).mp hle

theorem scansDrain (T : Jobs) {E : ℕ → Executor} (hE : ∀ i, (E i).Unlocked) (stamp : ℕ → ℤ)
    (now : ℤ) (hlimit : 0 < limit) : ScansDrain T E stamp now limit := by
  have hpos : 0 < limit.toNat := by omega
  obtain ⟨tables, taken, rfl, hdrain, hcalls⟩ := exists_drain
    (fun i T => requeueDueRetries T (E i) (stamp i) now limit) dueOrder limit.toNat
    (fun r => decide (Due now r)) (fun _ taken => taken.map JobRow.jobId) (fun i T => by
      obtain ⟨T', taken, hcall, hbatch, -⟩ := requeueDueRetries_batch T (hE i) (stamp i) now hlimit
      exact ⟨T', taken, hcall, hbatch⟩) T
  have hflat : ∀ n, (List.range n).flatMap (fun i => (taken i).map JobRow.jobId) =
      ((List.range n).flatMap taken).map JobRow.jobId :=
    fun n => List.map_flatMap.symm
  refine ⟨fun i => tables (i + 1), _, hcalls, ?_, ?_, ?_⟩
  · intro i
    rw [List.map_eq_nil_iff]
    exact hdrain.taken_eq_nil_iff hpos
  · rw [hflat]
    exact (hdrain.flatMap_perm hpos).map JobRow.jobId
  · intro hdistinct
    have hsep := separates_due hdistinct
    have hperm := hdrain.flatMap_perm hpos
    refine ⟨_, hperm, ?_, hflat _⟩
    have hnodup : ((List.range _).flatMap taken).Nodup :=
      hperm.nodup_iff.mpr ((tables 0).nodup_rows.filter _)
    apply ((hdrain.sorted _).1.and hnodup).imp_of_mem
    rintro a b ha hb ⟨hle, hne⟩
    -- two rows in the wrong order would have to tie
    by_contra hbefore
    have ha' := hperm.mem_iff.mp ha
    have hb' := hperm.mem_iff.mp hb
    apply hne
    apply hsep a ha' b hb' hle
    exact (dueOrder_le_iff (isDue_of_mem_due hb') (isDue_of_mem_due ha')).mpr hbefore

/-- **Retry scans drain exactly the due jobs, in order.** -/
theorem retry_scans_drain (T : Jobs) (now limit : ℤ) (hlimit : 1 ≤ limit) :
    (∀ E stamp, E.Unlocked → ScanTakes T E stamp now limit) ∧
      ∀ (E : ℕ → Executor) stamp, (∀ i, (E i).Unlocked) → ScansDrain T E stamp now limit :=
  ⟨fun _ stamp hE => scanTakes T hE stamp now hlimit,
    fun _ stamp hE => scansDrain T hE stamp now hlimit⟩

theorem oneRetry_lt : 1 < 2 ^ 31 := by decide

theorem threeRetries_lt : 3 < 2 ^ 31 := by decide

/-- A row that is due at 50. -/
def dueRow (jobId : String) (createdAt : ℤ) : JobRow where
  jobId := jobId
  tenantId := "tenant"
  priority := 1
  state := JobState.retryScheduled.value
  payload := .empty
  retryCount := 1
  maxRetries := 3
  createdAt := createdAt
  updatedAt := 20
  dispatchedAt := some 20
  retryAfter := some 50
  priority_lt := oneRetry_lt
  retryCount_lt := oneRetry_lt
  maxRetries_lt := threeRetries_lt

theorem retry_scans_drain_twoDue :
    let T : Jobs := ⟨[dueRow "late" 11, dueRow "early" 10], by decide⟩
    (∀ E stamp, E.Unlocked → ScanTakes T E stamp 50 1) ∧
      ∀ (E : ℕ → Executor) stamp, (∀ i, (E i).Unlocked) → ScansDrain T E stamp 50 1 :=
  retry_scans_drain _ 50 1 (by decide)

/-! ## Claims -/

def queued (T : Jobs) : List JobRow :=
  T.rows.filter fun r => decide (r.state = JobState.queued.value)

/-- A claim returns the jobs that were listed, and changes nothing else. -/
def ClaimsListed (T : Jobs) (E E' : Executor) (now limit : ℤ) : Prop :=
  ∃ (T' : Jobs) (jobs : List JobRecord), claimSchedulableJobs T E now limit = .ok (T', jobs) ∧
    jobs.map JobRecord.jobId = (listSchedulableJobs T E' limit.toNat).map JobRecord.jobId ∧
    T'.rows = T.rows.map fun r =>
      if r.jobId ∈ jobs.map JobRecord.jobId
      then
        { r with
          state := JobState.dispatched.value
          dispatchedAt := r.dispatchedAt.or (some now)
          updatedAt := now }
      else r

/-- Claims in a row return every queued job once, in the order of the listing. -/
def ClaimsDrain (T : Jobs) (E : ℕ → Executor) (E' : Executor) (now : ℕ → ℤ) (limit : ℤ) : Prop :=
  ∃ (tables : ℕ → Jobs) (jobs : ℕ → List JobRecord),
    let calls := (queued T).length ⌈/⌉ limit.toNat
    let ids := (List.range calls).flatMap fun i => (jobs i).map JobRecord.jobId
    (∀ i, repeated (fun i T => claimSchedulableJobs T (E i) (now i) limit) T i =
      .ok (tables i, jobs i)) ∧
    (∀ i, jobs i = [] ↔ calls ≤ i) ∧
    ids.Perm ((queued T).map JobRow.jobId) ∧
    ∀ n, (queued T).length ≤ n → ids = (listSchedulableJobs T E' n).map JobRecord.jobId

theorem separates_queued (h : (queued T).Pairwise fun a b =>
    (a.priority, a.createdAt) ≠ (b.priority, b.createdAt)) :
    claimOrder.Separates (queued T) := by
  apply SortKey.separates_of_pairwise h
  intro a _ b _ hab hba
  simp only [claimOrder, SortKey.lexicographic, decide_eq_true_eq] at hab hba
  rw [Prod.mk.injEq]
  omega

theorem listSchedulableJobs_ids (hsep : claimOrder.Separates (queued T)) (E : Executor) (n : ℕ) :
    (listSchedulableJobs T E n).map JobRecord.jobId =
      ((claimOrder.sort (queued T)).take n).map JobRow.jobId := by
  rw [listSchedulableJobs, List.map_map]
  exact congrArg (List.map JobRow.jobId) (hsep.selectTop_eq E.rank n)

/-- The records are sorted as their rows are. -/
theorem recordOrder_sort (rows : List JobRow) :
    recordOrder.sort (rows.map rowToRecord) = (claimOrder.sort rows).map rowToRecord := by
  apply SortKey.sort_map
  intro a b
  rfl

/-- **A claim takes a batch** of the queued rows. -/
theorem claimSchedulableJobs_batch (T : Jobs) (hE : E.Unlocked) (now : ℤ) (hlimit : 0 < limit) :
    ∃ (T' : Jobs) (taken : List JobRow), claimSchedulableJobs T E now limit =
        .ok (T', taken.map fun r => rowToRecord ((setDispatched now).set r)) ∧
      claimOrder.Batch limit.toNat (queued T) taken (queued T') ∧
      T'.rows = T.rows.map fun r =>
        if r.jobId ∈ taken.map JobRow.jobId
        then
          { r with
            state := JobState.dispatched.value
            dispatchedAt := r.dispatchedAt.or (some now)
            updatedAt := now }
        else r := by
  have hsel : schedulableRows T E limit.toNat =
      claimOrder.selectTop E.rank limit.toNat (queued T) := by
    simp only [schedulableRows, queued, hE _, Bool.not_false, Bool.and_true]
  have hleave : ∀ r : JobRow,
      decide (((setDispatched now).set r).state = JobState.queued.value) = false := by
    intro r
    exact decide_eq_false (show JobState.dispatched.value ≠ JobState.queued.value by decide)
  obtain ⟨taken, hbatch, hperm, hsorted⟩ :=
    SortKey.batch_of_update T hleave (fun _ _ => rfl) hsel (E.returning_perm _)
  refine ⟨_, taken, ?_, hbatch, ?_⟩
  · rw [claimSchedulableJobs, if_neg (not_le.mpr hlimit), dispatchRows,
      recordOrder_sort, hsorted, List.map_map]
    rfl
  · rw [KeyedTable.update]
    apply List.map_congr_left
    intro r _
    simp only [decide_eq_true_eq, (hperm.map JobRow.jobId).mem_iff]
    rfl

theorem map_jobId_dispatched (rows : List JobRow) (now : ℤ) :
    (rows.map fun r => rowToRecord ((setDispatched now).set r)).map JobRecord.jobId =
      rows.map JobRow.jobId := by
  rw [List.map_map]
  rfl

theorem claimsListed (hsep : claimOrder.Separates (queued T)) (hE : E.Unlocked) (E' : Executor)
    (now : ℤ) (hlimit : 0 < limit) : ClaimsListed T E E' now limit := by
  obtain ⟨T', taken, hcall, hbatch, hrows⟩ := claimSchedulableJobs_batch T hE now hlimit
  refine ⟨T', _, hcall, ?_, ?_⟩
  · rw [map_jobId_dispatched, listSchedulableJobs_ids hsep, ← hbatch.eq_take hsep]
  · rw [map_jobId_dispatched]
    exact hrows

theorem claimsDrain (hsep : claimOrder.Separates (queued T)) {E : ℕ → Executor}
    (hE : ∀ i, (E i).Unlocked) (E' : Executor) (now : ℕ → ℤ) (hlimit : 0 < limit) :
    ClaimsDrain T E E' now limit := by
  have hpos : 0 < limit.toNat := by omega
  obtain ⟨tables, taken, rfl, hdrain, hcalls⟩ := exists_drain
    (fun i T => claimSchedulableJobs T (E i) (now i) limit) claimOrder limit.toNat
    (fun r => decide (r.state = JobState.queued.value))
    (fun i taken => taken.map fun r => rowToRecord ((setDispatched (now i)).set r)) (fun i T => by
      obtain ⟨T', taken, hcall, hbatch, -⟩ := claimSchedulableJobs_batch T (hE i) (now i) hlimit
      exact ⟨T', taken, hcall, hbatch⟩) T
  have hflat : ∀ n, ((List.range n).flatMap fun i =>
        ((taken i).map fun r => rowToRecord ((setDispatched (now i)).set r)).map
          JobRecord.jobId) = ((List.range n).flatMap taken).map JobRow.jobId := by
    intro n
    simp only [map_jobId_dispatched]
    exact List.map_flatMap.symm
  refine ⟨fun i => tables (i + 1), _, hcalls, ?_, ?_, ?_⟩
  · intro i
    rw [List.map_eq_nil_iff]
    exact hdrain.taken_eq_nil_iff hpos
  · rw [hflat]
    exact (hdrain.flatMap_perm hpos).map JobRow.jobId
  · intro n hn
    have hall : (claimOrder.sort (queued (tables 0))).length ≤ n := by
      rwa [SortKey.length_sort]
    rw [hflat, listSchedulableJobs_ids hsep, List.take_of_length_le hall]
    exact congrArg (List.map JobRow.jobId) (hdrain.flatMap_eq_sort hpos hsep)

/-- **Listing predicts claiming**, if no two queued rows tie. -/
theorem listing_predicts_claiming (T : Jobs) (limit : ℤ) (hlimit : 1 ≤ limit)
    (hdistinct : (queued T).Pairwise fun a b =>
      (a.priority, a.createdAt) ≠ (b.priority, b.createdAt)) :
    (∀ E E' now, E.Unlocked → ClaimsListed T E E' now limit) ∧
      ∀ (E : ℕ → Executor) E' now, (∀ i, (E i).Unlocked) → ClaimsDrain T E E' now limit :=
  ⟨fun _ E' now hE => claimsListed (separates_queued hdistinct) hE E' now hlimit,
    fun _ E' now hE => claimsDrain (separates_queued hdistinct) hE E' now hlimit⟩

theorem listing_predicts_claiming_twoQueued :
    let queuedRow (jobId : String) (createdAt : ℤ) : JobRow :=
      (setRequeued 60).set (dueRow jobId createdAt)
    let T : Jobs := ⟨[queuedRow "late" 11, queuedRow "early" 10], by decide⟩
    (∀ E E' now, E.Unlocked → ClaimsListed T E E' now 1) ∧
      ∀ (E : ℕ → Executor) E' now, (∀ i, (E i).Unlocked) → ClaimsDrain T E E' now 1 :=
  listing_predicts_claiming _ 1 (by decide) (by decide)

end JobRepository

end KernelQ.ControlPlane
