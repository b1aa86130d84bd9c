import KernelQ.ControlPlane.System
import Mathlib.Data.List.Flatten
import Mathlib.Data.List.Pairwise

/-!
# Schedulers side by side

Here a claim is a transaction: it chooses and locks its rows in one step, and
updates them and commits in a later one. Until then other claims and retry scans
skip its rows, and a statement that writes one of them waits, which is to say
that its step is not enabled. `mark_job_dispatched` is two steps too, its read
and its guarded `UPDATE`.

The invariant is that the rows an open claim has locked are still in the table
as they were chosen, and locked once (`Inv`).
-/

namespace KernelQ.ControlPlane

open KernelQ.Foundation

namespace ConcurrentClaims

/-- A claim that has locked its rows and not yet committed. -/
structure OpenClaim where
  tx : ℕ
  limit : ℕ
  /-- The unlocked queued rows at the moment of the choice. -/
  candidates : List JobRow
  rows : List JobRow
  chosen : ∃ rank, rows = claimOrder.selectTop rank limit candidates

/-- The table, the open claims, and the calls of `mark_job_dispatched` that have
read a queued row. -/
structure State where
  jobs : Jobs
  claims : List OpenClaim
  marks : List String

/-- Of its executor, a commit uses the order of `RETURNING` only. -/
inductive Action
  | claimBegin (tx : ℕ) (limit : ℤ) (rank : JobRow → ℕ)
  | claimCommit (tx : ℕ) (E : Executor) (now : ℤ)
  | markRead (jobId : String)
  | markWrite (i : ℕ) (now : ℤ)
  | requeueDueRetries (E : Executor) (stamp now limit : ℤ)
  | requeueDeadLettered (jobId : String) (now : ℤ)
  | result (event : ValidResult) (now clock : ℤ)
  | updateState (jobId : String) (newState : JobState) (now : ℤ)
  | enqueue (jobId : String) (body : EnqueueJobRequest) (now : ℤ)

namespace State

def start (T : Jobs) : State := ⟨T, [], []⟩

def lockedIds (s : State) : List String :=
  s.claims.flatMap fun c => c.rows.map JobRow.jobId

def locked (s : State) (jobId : String) : Bool := decide (jobId ∈ s.lockedIds)

/-- The unlocked queued rows. -/
def candidates (s : State) : List JobRow :=
  s.jobs.rows.filter fun r => decide (r.state = JobState.queued.value) && !s.locked r.jobId

/-- The choice of a claim that begins now: `FOR UPDATE SKIP LOCKED`. -/
def openClaim (s : State) (tx limit : ℕ) (rank : JobRow → ℕ) : OpenClaim where
  tx := tx
  limit := limit
  candidates := s.candidates
  rows := claimOrder.selectTop rank limit s.candidates
  chosen := ⟨rank, rfl⟩

/-- A statement that writes the row of `jobId` waits for its lock. -/
def unlessLocked (s : State) (jobId : String) (jobs : Jobs) : Option (State × List JobRecord) :=
  if s.locked jobId then none else some ({ s with jobs }, [])

/-- One step, and the rows it returns to a caller that claims jobs. -/
def stepReturning (s : State) : Action → Option (State × List JobRecord)
  | .claimBegin tx limit rank =>
      if limit ≤ 0 ∨ tx ∈ s.claims.map OpenClaim.tx then none
      else some ({ s with claims := s.claims ++ [s.openClaim tx limit.toNat rank] }, [])
  | .claimCommit tx E now =>
      (s.claims.find? fun c => decide (c.tx = tx)).map fun c =>
        let r := JobRepository.dispatchRows s.jobs E now c.rows
        ({ s with jobs := r.1, claims := s.claims.filter fun c => decide (c.tx ≠ tx) }, r.2)
  | .markRead jobId =>
      match JobRepository.getJob s.jobs jobId with
      | none => some (s, [])
      | some current =>
          if current.state ≠ JobState.queued.value then some (s, [])
          else some ({ s with marks := s.marks ++ [jobId] }, [])
  | .markWrite i now =>
      match s.marks[i]? with
      | none => none
      | some jobId =>
          if s.locked jobId then none
          else
            let r := JobRepository.dispatchIfQueued s.jobs now jobId
            some ({ s with jobs := r.1, marks := s.marks.eraseIdx i }, r.2.toList)
  | .requeueDueRetries E stamp now limit =>
      some
        ({ s with
            jobs := System.tableOf s.jobs
              (JobRepository.requeueDueRetries s.jobs { E with locked := s.locked } stamp now
                limit) },
          [])
  | .requeueDeadLettered jobId now =>
      s.unlessLocked jobId (JobRepository.requeueDeadLetteredJob s.jobs now jobId).1
  | .result event now clock =>
      s.unlessLocked event.1.jobId (ResultStateHandler.handle s.jobs now clock event.1).1
  | .updateState jobId newState now =>
      s.unlessLocked jobId (JobRepository.updateJobState s.jobs now jobId newState.value).1
  | .enqueue jobId body now =>
      some ({ s with jobs := (Request.enqueue jobId body).write s.jobs now }, [])

def step (s : State) (a : Action) : Option State := (s.stepReturning a).map Prod.fst

/-- The ids a step returns. -/
def returnedIds (s : State) (a : Action) : List String :=
  ((s.stepReturning a).map fun r => r.2.map JobRecord.jobId).getD []

def Queued (s : State) (k : String) : Prop :=
  ∃ r, s.jobs.find? k = some r ∧ r.state = JobState.queued.value

end State

def machine : Machine State Action := ⟨State.step⟩

/-- **A claim that nobody interrupts** is `claim_schedulable_jobs`, with the rows
of the other open claims locked. -/
theorem begin_commit_eq (s : State) (E : Executor) (tx : ℕ) (limit now : ℤ) (hlimit : 0 < limit)
    (htx : tx ∉ s.claims.map OpenClaim.tx) :
    ∃ t u jobs, s.step (.claimBegin tx limit E.rank) = some t ∧
      t.stepReturning (.claimCommit tx E now) = some (u, jobs) ∧
      JobRepository.claimSchedulableJobs s.jobs { E with locked := s.locked } now limit =
        .ok (u.jobs, jobs) := by
  have hfresh : ¬ (limit ≤ 0 ∨ tx ∈ s.claims.map OpenClaim.tx) := by
    rintro (h | h)
    · omega
    · exact htx h
  have hbegin : s.step (.claimBegin tx limit E.rank) =
      some { s with claims := s.claims ++ [s.openClaim tx limit.toNat E.rank] } := by
    rw [State.step, State.stepReturning, if_neg hfresh]
    rfl
  -- the commit finds its own claim, behind those that were open before
  have hfind : (s.claims ++ [s.openClaim tx limit.toNat E.rank]).find?
      (fun c => decide (c.tx = tx)) = some (s.openClaim tx limit.toNat E.rank) := by
    have hnone : s.claims.find? (fun c => decide (c.tx = tx)) = none := by
      rw [List.find?_eq_none]
      intro c hc h
      exact htx (List.mem_map.mpr ⟨c, hc, of_decide_eq_true h⟩)
    rw [List.find?_append, hnone, Option.none_or]
    simp [State.openClaim]
  have hclaim : JobRepository.claimSchedulableJobs s.jobs { E with locked := s.locked } now limit =
      .ok (JobRepository.dispatchRows s.jobs E now
        (s.openClaim tx limit.toNat E.rank).rows) := by
    rw [JobRepository.claimSchedulableJobs, if_neg (by omega)]
    rfl
  have hcommit : State.stepReturning
      { s with claims := s.claims ++ [s.openClaim tx limit.toNat E.rank] }
      (.claimCommit tx E now) = some
        (let r := JobRepository.dispatchRows s.jobs E now
          (s.openClaim tx limit.toNat E.rank).rows
        ({ s with
            jobs := r.1
            claims := (s.claims ++ [s.openClaim tx limit.toNat E.rank]).filter
              fun c => decide (c.tx ≠ tx) }, r.2)) := by
    rw [State.stepReturning, hfind]
    rfl
  exact ⟨_, _, _, hbegin, hcommit, hclaim⟩

/-! ## The invariant -/

structure Inv (s : State) : Prop where
  txs : (s.claims.map OpenClaim.tx).Nodup
  locks : s.lockedIds.Nodup
  current : ∀ c ∈ s.claims, ∀ r ∈ c.rows,
    s.jobs.find? r.jobId = some r ∧ r.state = JobState.queued.value

variable {s t : State} {a : Action} {c d : OpenClaim} {r : JobRow} {k : String}

theorem mem_lockedIds (hc : c ∈ s.claims) (hr : r ∈ c.rows) : r.jobId ∈ s.lockedIds :=
  List.mem_flatMap.mpr ⟨c, hc, List.mem_map_of_mem hr⟩

/-- Two open claims share no row. -/
theorem Inv.disjoint (hs : Inv s) (hc : c ∈ s.claims) (hd : d ∈ s.claims) (hne : c.tx ≠ d.tx)
    (hr : r ∈ c.rows) : r.jobId ∉ d.rows.map JobRow.jobId := by
  have hpair := (List.nodup_flatMap.mp hs.locks).2
  have : Std.Symm (Function.onFun List.Disjoint fun c : OpenClaim => c.rows.map JobRow.jobId) :=
    ⟨fun _ _ h _ ha hb => h hb ha⟩
  have hdisjoint := hpair.forall hc hd fun h => hne (h ▸ rfl)
  exact fun h => hdisjoint (List.mem_map_of_mem hr) h

theorem mem_candidates_iff : r ∈ s.candidates ↔
    r ∈ s.jobs.rows ∧ r.state = JobState.queued.value ∧ r.jobId ∉ s.lockedIds := by
  simp [State.candidates, State.locked]

theorem mem_candidates_of_mem_rows {tx limit : ℕ} {rank : JobRow → ℕ}
    (hr : r ∈ (s.openClaim tx limit rank).rows) : r ∈ s.candidates :=
  claimOrder.mem_of_mem_selectTop hr

/-! ## What a step leaves alone -/

theorem unlessLocked_eq_some {jobId : String} {jobs : Jobs} {u : State × List JobRecord}
    (h : s.unlessLocked jobId jobs = some u) :
    jobId ∉ s.lockedIds ∧ u = ({ s with jobs }, []) := by
  unfold State.unlessLocked State.locked at h
  split at h
  · cases h
  · rename_i hfree
    cases h
    exact ⟨by simpa using hfree, rfl⟩

theorem step_eq_some_iff : s.step a = some t ↔ ∃ jobs, s.stepReturning a = some (t, jobs) := by
  simp [State.step]

theorem find?_updateRow_of_locked {jobId : String} (q : JobRow → Bool) (u : JobUpdate)
    (hk : k ∈ s.lockedIds) (hfree : jobId ∉ s.lockedIds) :
    (JobRepository.updateRow s.jobs jobId q u).1.find? k = s.jobs.find? k := by
  rw [JobRepository.find?_updateRow, if_neg (ne_of_mem_of_not_mem hk hfree)]

/-- What a step can do. Only claims and `mark_job_dispatched` return rows; every
other step leaves the open claims and the locked rows alone. -/
inductive StepCase (s : State) : Action → State → List JobRecord → Prop
  | opened {tx : ℕ} {limit : ℤ} {rank : JobRow → ℕ} (htx : tx ∉ s.claims.map OpenClaim.tx) :
      StepCase s (.claimBegin tx limit rank)
        { s with claims := s.claims ++ [s.openClaim tx limit.toNat rank] } []
  | committed {tx : ℕ} {E : Executor} {now : ℤ} {c : OpenClaim} (hc : c ∈ s.claims)
      (htx : c.tx = tx) :
      StepCase s (.claimCommit tx E now)
        { s with
          jobs := (JobRepository.dispatchRows s.jobs E now c.rows).1
          claims := s.claims.filter fun c => decide (c.tx ≠ tx) }
        (JobRepository.dispatchRows s.jobs E now c.rows).2
  | marked {i : ℕ} {now : ℤ} {jobId : String} (hfree : jobId ∉ s.lockedIds) :
      StepCase s (.markWrite i now)
        { s with
          jobs := (JobRepository.dispatchIfQueued s.jobs now jobId).1
          marks := s.marks.eraseIdx i }
        (JobRepository.dispatchIfQueued s.jobs now jobId).2.toList
  | other {a : Action} {T : Jobs} {marks : List String}
      (hkept : ∀ k ∈ s.lockedIds, ∀ r, s.jobs.find? k = some r → T.find? k = some r)
      (ha : ∀ tx E now, a ≠ .claimCommit tx E now) : StepCase s a { s with jobs := T, marks } []

/-- A statement that waits for the lock of the row it writes. -/
theorem stepCase_unlessLocked {jobId : String} {T : Jobs} {jobs : List JobRecord}
    (h : s.unlessLocked jobId T = some (t, jobs))
    (hT : ∀ k, k ≠ jobId → T.find? k = s.jobs.find? k)
    (ha : ∀ tx E now, a ≠ .claimCommit tx E now) : StepCase s a t jobs := by
  obtain ⟨hfree, heq⟩ := unlessLocked_eq_some h
  cases heq
  refine .other (fun k hk r hr => ?_) ha
  rw [hT k (ne_of_mem_of_not_mem hk hfree), hr]

theorem stepCase {jobs : List JobRecord} (h : s.stepReturning a = some (t, jobs)) :
    StepCase s a t jobs := by
  cases a with
  | claimBegin tx limit rank =>
      simp only [State.stepReturning] at h
      split at h
      · cases h
      · rename_i hfresh
        cases h
        exact .opened fun htx => hfresh (Or.inr htx)
  | claimCommit tx E now =>
      simp only [State.stepReturning, Option.map_eq_some_iff, Prod.mk.injEq] at h
      obtain ⟨c, hfind, rfl, rfl⟩ := h
      exact .committed (List.mem_of_find?_eq_some hfind) (by simpa using List.find?_some hfind)
  | markRead jobId =>
      simp only [State.stepReturning] at h
      split at h
      · cases h
        exact .other (fun k _ r hr => hr) (by simp)
      · split at h <;>
          · cases h
            exact .other (fun k _ r hr => hr) (by simp)
  | markWrite i now =>
      simp only [State.stepReturning] at h
      split at h
      · cases h
      · split at h
        · cases h
        · rename_i jobId _ hfree
          cases h
          exact .marked (by simpa [State.locked] using hfree)
  | requeueDueRetries E stamp now limit =>
      cases h
      refine .other (fun k hk r hr => ?_) (by simp)
      cases hscan : JobRepository.requeueDueRetries s.jobs { E with locked := s.locked } stamp now
          limit with
      | error e => exact hr
      | ok v =>
          show KeyedTable.find? v.1 k = some r
          rw [(JobRepository.requeueDueRetries_eq_ok hscan).2, hr, Option.map_some, if_neg]
          -- the scan has skipped the locked rows
          intro hmem
          obtain ⟨r', hr', he⟩ := List.mem_map.mp hmem
          have hunlocked := (JobRepository.mem_dueRows hr').2.2
          rw [he, KeyedTable.key_of_find? hr] at hunlocked
          simp [State.locked, hk] at hunlocked
  | requeueDeadLettered jobId now =>
      refine stepCase_unlessLocked h (fun k hk => ?_) (by simp)
      exact (JobRepository.find?_updateRow _ _ _ _ _).trans (if_neg hk)
  | result event now clock =>
      refine stepCase_unlessLocked h (fun k hk => ?_) (by simp)
      rw [ResultStateHandler.find?_handle _ _ _ event.2, if_neg hk]
  | updateState jobId newState now =>
      refine stepCase_unlessLocked h (fun k hk => ?_) (by simp)
      exact (JobRepository.find?_updateRow _ _ _ _ _).trans (if_neg hk)
  | enqueue jobId body now =>
      cases h
      refine .other (fun k hk r hr => ?_) (by simp)
      rw [Request.write]
      split
      · rename_i hinsert
        obtain ⟨r', -, -, -, hnone, hfind⟩ := Api.enqueueInsert_eq_ok hinsert
        rw [hfind, if_neg, hr]
        rintro rfl
        rw [hnone] at hr
        cases hr
      · exact hr

/-- **A lock holds**: only the commit of the claim that locked a row changes
it. -/
theorem find?_of_locked (h : s.step a = some t) (hr : s.jobs.find? k = some r)
    (hk : k ∈ s.lockedIds)
    (hcommit : ∀ tx E now, a = .claimCommit tx E now →
      ∀ c ∈ s.claims, c.tx = tx → k ∉ c.rows.map JobRow.jobId) :
    t.jobs.find? k = some r := by
  have hkey : r.jobId = k := KeyedTable.key_of_find? hr
  obtain ⟨jobs, h⟩ := step_eq_some_iff.mp h
  cases stepCase h with
  | opened htx => exact hr
  | committed hc htx =>
      have hfree := hcommit _ _ _ rfl _ hc htx
      rw [JobRepository.find?_dispatchRows, hr, Option.map_some, if_neg (hkey ▸ hfree)]
  | marked hfree => exact (find?_updateRow_of_locked _ _ hk hfree).trans hr
  | other hkept ha => exact hkept k hk r hr

theorem step_claimBegin_iff {tx : ℕ} {limit : ℤ} {rank : JobRow → ℕ} :
    s.step (.claimBegin tx limit rank) = some t ↔
      (0 < limit ∧ tx ∉ s.claims.map OpenClaim.tx) ∧
        { s with claims := s.claims ++ [s.openClaim tx limit.toNat rank] } = t := by
  rw [State.step, State.stepReturning]
  by_cases h : limit ≤ 0 ∨ tx ∈ s.claims.map OpenClaim.tx
  · rw [if_pos h]
    constructor
    · rintro ⟨⟩
    · rintro ⟨⟨hlimit, htx⟩, -⟩
      rcases h with h | h
      · omega
      · exact absurd h htx
  · rw [if_neg h]
    obtain ⟨hlimit, htx⟩ := not_or.mp h
    simp only [Option.map_some, Option.some.injEq]
    constructor
    · exact fun ht => ⟨⟨by omega, htx⟩, ht⟩
    · exact fun ht => ht.2

/-! ## The invariant holds throughout -/

theorem Inv.step (hs : Inv s) (h : s.step a = some t) : Inv t := by
  have hkept : ∀ c ∈ s.claims, (∀ tx E now, a = .claimCommit tx E now → c.tx ≠ tx) →
      ∀ r ∈ c.rows, t.jobs.find? r.jobId = some r ∧ r.state = JobState.queued.value := by
    intro c hc htx r hr
    obtain ⟨hfind, hstate⟩ := hs.current c hc r hr
    refine ⟨find?_of_locked h hfind (mem_lockedIds hc hr) ?_, hstate⟩
    intro tx E now ha d hd hdtx
    exact hs.disjoint hc hd (hdtx.symm ▸ htx tx E now ha) hr
  obtain ⟨jobs, h⟩ := step_eq_some_iff.mp h
  cases stepCase h with
  | other _ ha =>
      exact ⟨hs.txs, hs.locks, fun c hc => hkept c hc fun tx E now he => absurd he (ha tx E now)⟩
  | marked => exact ⟨hs.txs, hs.locks, fun c hc => hkept c hc (by simp)⟩
  | @opened tx limit rank htx =>
      refine ⟨?_, ?_, ?_⟩
      · rw [List.map_append, List.nodup_append]
        refine ⟨hs.txs, List.nodup_singleton _, ?_⟩
        intro x hx y hy
        rw [List.mem_singleton.mp hy]
        exact ne_of_mem_of_not_mem hx htx
      · -- the new claim has chosen among the rows that nobody has locked
        rw [State.lockedIds, List.flatMap_append, List.flatMap_singleton, List.nodup_append]
        refine ⟨hs.locks, ?_, ?_⟩
        · exact s.jobs.nodup_map_key
            (claimOrder.selectTop_nodup (s.jobs.nodup_rows.filter _))
            (fun r hr => (mem_candidates_iff.mp (mem_candidates_of_mem_rows hr)).1)
        · intro x hx y hy
          obtain ⟨r, hr, rfl⟩ := List.mem_map.mp hy
          exact ne_of_mem_of_not_mem hx
            (mem_candidates_iff.mp (mem_candidates_of_mem_rows hr)).2.2
      · intro c hc r hr
        rw [List.mem_append, List.mem_singleton] at hc
        rcases hc with hc | rfl
        · exact hs.current c hc r hr
        · obtain ⟨hmem, hstate, -⟩ := mem_candidates_iff.mp (mem_candidates_of_mem_rows hr)
          exact ⟨KeyedTable.find?_eq_some_iff.mpr ⟨hmem, rfl⟩, hstate⟩
  | @committed tx E now c hc htx =>
      have hsub : (s.claims.filter fun c => decide (c.tx ≠ tx)).Sublist s.claims :=
        List.filter_sublist
      refine ⟨hs.txs.sublist (hsub.map _), hs.locks.sublist (hsub.flatMap _), ?_⟩
      intro d hd
      rw [List.mem_filter, decide_eq_true_eq] at hd
      apply hkept d hd.1
      intro tx' E' now' he
      cases he
      exact hd.2

theorem inv_start (T : Jobs) : Inv (State.start T) where
  txs := List.nodup_nil
  locks := List.nodup_nil
  current c hc := by cases hc

theorem inv_run {as : List Action} (hs : Inv s) (h : machine.run s as = some t) : Inv t :=
  Machine.run_invariant (fun _ _ _ hu ha => hu.step ha) hs h

/-! ## A claim takes its rows out of `queued` -/

theorem rows_current (hs : Inv s) (hc : c ∈ s.claims) : ∀ r ∈ c.rows, r ∈ s.jobs.rows :=
  fun r hr => (KeyedTable.find?_eq_some_iff.mp (hs.current c hc r hr).1).1

theorem rows_nodup (hs : Inv s) (hc : c ∈ s.claims) : c.rows.Nodup :=
  ((List.nodup_flatMap.mp hs.locks).1 c hc).of_map _

theorem commit_returns {tx : ℕ} {E : Executor} {now : ℤ} {jobs : List JobRecord}
    (h : s.stepReturning (.claimCommit tx E now) = some (t, jobs)) :
    ∃ c ∈ s.claims, c.tx = tx ∧ jobs = (JobRepository.dispatchRows s.jobs E now c.rows).2 := by
  simp only [State.stepReturning, Option.map_eq_some_iff, Prod.mk.injEq] at h
  obtain ⟨c, hfind, -, rfl⟩ := h
  exact ⟨c, List.mem_of_find?_eq_some hfind, by simpa using List.find?_some hfind, rfl⟩

/-- What a commit returns: the rows its claim chose. -/
theorem dispatchRows_open_perm (hs : Inv s) (hc : c ∈ s.claims) (E : Executor) (now : ℤ) :
    (JobRepository.dispatchRows s.jobs E now c.rows).2.Perm
      (c.rows.map fun r => rowToRecord ((setDispatched now).set r)) :=
  JobRepository.dispatchRows_perm (rows_current hs hc) (rows_nodup hs hc) E now

/-- `mark_job_dispatched` returns its row if it is queued. -/
theorem mem_dispatchIfQueued {jobId : String} {now : ℤ}
    (hk : k ∈ (JobRepository.dispatchIfQueued s.jobs now jobId).2.toList.map JobRecord.jobId) :
    k = jobId ∧ s.Queued k := by
  have hsnd : (JobRepository.dispatchIfQueued s.jobs now jobId).2 =
      (((s.jobs.find? jobId).filter fun r =>
        decide (r.state = JobState.queued.value)).map (setDispatched now).set).map
          rowToRecord := by
    rw [← JobRepository.snd_updateRow]
    rfl
  rw [hsnd] at hk
  obtain ⟨job, hjob, rfl⟩ := List.mem_map.mp hk
  simp only [Option.mem_toList, Option.map_eq_some_iff, Option.filter_eq_some_iff,
    decide_eq_true_eq] at hjob
  obtain ⟨_, ⟨r, ⟨hfind, hstate⟩, rfl⟩, rfl⟩ := hjob
  obtain rfl : r.jobId = jobId := KeyedTable.key_of_find? hfind
  exact ⟨rfl, r, hfind, hstate⟩

theorem not_queued_of_dispatched (now : ℤ)
    (h : t.jobs.find? k = some ((setDispatched now).set r)) : ¬ t.Queued k := by
  rintro ⟨r', hr', hqueued⟩
  obtain rfl : (setDispatched now).set r = r' := Option.some.inj (h.symm.trans hr')
  exact absurd hqueued (by simp [setDispatched])

theorem returned_queued (hs : Inv s) (h : s.step a = some t) (hk : k ∈ s.returnedIds a) :
    s.Queued k ∧ ¬ t.Queued k := by
  obtain ⟨jobs, h⟩ := step_eq_some_iff.mp h
  have hk' : k ∈ jobs.map JobRecord.jobId := by
    rwa [State.returnedIds, h] at hk
  cases stepCase h with
  | @committed tx E now c hc htx =>
      have hids := ((dispatchRows_open_perm hs hc E now).map JobRecord.jobId).mem_iff.mp hk'
      rw [List.map_map] at hids
      obtain ⟨r, hr, rfl⟩ := List.mem_map.mp hids
      obtain ⟨hfind, hstate⟩ := hs.current c hc r hr
      refine ⟨⟨r, hfind, hstate⟩, not_queued_of_dispatched (r := r) now ?_⟩
      show (JobRepository.dispatchRows s.jobs E now c.rows).1.find? r.jobId = _
      rw [JobRepository.find?_dispatchRows, hfind, Option.map_some,
        if_pos (List.mem_map_of_mem hr)]
  | @marked i now jobId hfree =>
      obtain ⟨rfl, r, hfind, hstate⟩ := mem_dispatchIfQueued hk'
      refine ⟨⟨r, hfind, hstate⟩, not_queued_of_dispatched (r := r) now ?_⟩
      show (JobRepository.updateRow s.jobs k _ _).1.find? k = _
      rw [JobRepository.find?_updateRow, if_pos rfl, hfind, Option.map_some]
      simp [hstate]
  | opened => cases hk'
  | other => cases hk'

/-- Between two claims of a job, in any run from `s₀`, some step puts it back into
`queued`. -/
def Exclusive (s₀ : State) : Prop :=
  ∀ pre a mid b s t u v k, machine.run s₀ pre = some s → s.step a = some t →
    machine.run t mid = some u → u.step b = some v →
    k ∈ s.returnedIds a → k ∈ u.returnedIds b →
    ∃ before c after w w', mid = before ++ c :: after ∧ machine.run t before = some w ∧
      w.step c = some w' ∧ ¬ w.Queued k ∧ w'.Queued k

theorem exclusive (T : Jobs) : Exclusive (State.start T) := by
  intro pre a mid b s t u v k hs ha hu hb hka hkb
  have hinv : Inv s := inv_run (inv_start T) hs
  have hafter : ¬ t.Queued k := (returned_queued hinv ha hka).2
  have hbefore : u.Queued k := (returned_queued (inv_run (hinv.step ha) hu) hb hkb).1
  obtain ⟨before, c, after, w, w', hmid, hw, hc, -, hnot, hqueued⟩ :=
    Machine.run_crosses (p := fun w => w.Queued k) hu hafter hbefore
  exact ⟨before, c, after, w, w', hmid, hw, hc, hnot, hqueued⟩

/-! ## A claim takes the best rows -/

/-- The row is queued, and no open claim has locked it. -/
def State.Free (s : State) (r : JobRow) : Prop :=
  r.state = JobState.queued.value ∧ ∀ c ∈ s.claims, r.jobId ∉ c.rows.map JobRow.jobId

instance (s : State) (r : JobRow) : Decidable (s.Free r) :=
  inferInstanceAs (Decidable (_ ∧ ∀ c ∈ s.claims, _))

/-- A job ranks no worse than a row or a job with this priority and this age. -/
def Ranks (job : JobRecord) (priority createdAt : ℤ) : Prop :=
  priority < job.priority ∨ job.priority = priority ∧ job.createdAt ≤ createdAt

/-- What a claim that chose its rows in `s` returns. -/
structure FairChoice (s : State) (limit now : ℤ) (jobs : List JobRecord) : Prop where
  length : jobs.length =
    min limit.toNat (s.jobs.rows.filter fun r => decide (s.Free r)).length
  distinct : (jobs.map JobRecord.jobId).Nodup
  chosen : ∀ job ∈ jobs, ∃ r ∈ s.jobs.rows, s.Free r ∧
    job = rowToRecord ((setDispatched now).set r)
  best : ∀ r ∈ s.jobs.rows, s.Free r → r.jobId ∉ jobs.map JobRecord.jobId →
    ∀ job ∈ jobs, Ranks job r.priority r.createdAt
  sorted : jobs.Pairwise fun job job' => Ranks job job'.priority job'.createdAt

/-- Every claim that commits, in any run from `s₀`, returns a fair choice among
the rows it found, whatever happens until it commits. -/
def Fair (s₀ : State) : Prop :=
  ∀ pre tx limit rank mid E now s t u jobs, machine.run s₀ pre = some s →
    machine.run s (.claimBegin tx limit rank :: mid) = some t →
    (∀ E now, .claimCommit tx E now ∉ mid) →
    t.stepReturning (.claimCommit tx E now) = some (u, jobs) →
    FairChoice s limit now jobs

theorem candidates_eq_filter (s : State) :
    s.candidates = s.jobs.rows.filter fun r => decide (s.Free r) := by
  refine List.filter_congr fun r _ => ?_
  rw [Bool.eq_iff_iff]
  simp [State.locked, State.lockedIds, State.Free]

theorem mem_candidates_iff_free : r ∈ s.candidates ↔ r ∈ s.jobs.rows ∧ s.Free r := by
  rw [candidates_eq_filter, List.mem_filter, decide_eq_true_iff]

theorem ranks_of_le {job job' : JobRecord} (h : recordOrder.le job job' = true) :
    Ranks job job'.priority job'.createdAt := by
  simpa [Ranks, recordOrder, SortKey.lexicographic] using h

/-- An open claim stays open until its own commit. -/
theorem mem_claims_run {mid : List Action} (h : machine.run s mid = some t) (hc : c ∈ s.claims)
    (hmid : ∀ E now, .claimCommit c.tx E now ∉ mid) : c ∈ t.claims := by
  induction mid generalizing s with
  | nil =>
      cases h
      exact hc
  | cons a mid ih =>
      obtain ⟨u, ha, h⟩ := machine.run_cons_iff.mp h
      refine ih h ?_ fun E now hmem => hmid E now (List.mem_cons_of_mem _ hmem)
      obtain ⟨jobs, ha⟩ := step_eq_some_iff.mp ha
      cases stepCase ha with
      | opened htx => exact List.mem_append_left _ hc
      | @committed tx E now d hd htx =>
          have hne : c.tx ≠ tx := by
            rintro rfl
            exact hmid E now List.mem_cons_self
          exact List.mem_filter.mpr ⟨hc, decide_eq_true hne⟩
      | marked => exact hc
      | other => exact hc

theorem Inv.eq_of_tx_eq (hs : Inv s) (hc : c ∈ s.claims) (hd : d ∈ s.claims) (h : c.tx = d.tx) :
    c = d :=
  List.inj_on_of_nodup_map hs.txs hc hd h

theorem fair (T : Jobs) : Fair (State.start T) := by
  intro pre tx limit rank mid E now s t u jobs hs ht hmid hcommit
  have hinv : Inv s := inv_run (inv_start T) hs
  have hinvt : Inv t := inv_run hinv ht
  obtain ⟨s₁, hbegin, hrun⟩ := machine.run_cons_iff.mp ht
  obtain ⟨-, rfl⟩ := step_claimBegin_iff.mp hbegin
  -- the claim that commits is the one that began
  have hopen : s.openClaim tx limit.toNat rank ∈ t.claims :=
    mem_claims_run hrun (List.mem_append_right _ (List.mem_singleton.mpr rfl)) hmid
  obtain ⟨c, hc, htx, hjobs⟩ := commit_returns hcommit
  obtain rfl : c = s.openClaim tx limit.toNat rank := hinvt.eq_of_tx_eq hc hopen htx
  have hperm := dispatchRows_open_perm hinvt hc E now
  rw [← hjobs] at hperm
  have hids : (jobs.map JobRecord.jobId).Perm
      ((s.openClaim tx limit.toNat rank).rows.map JobRow.jobId) := by
    have hmap := hperm.map JobRecord.jobId
    rwa [List.map_map] at hmap
  refine ⟨?_, ?_, ?_, ?_, ?_⟩
  · rw [hperm.length_eq, List.length_map, ← candidates_eq_filter]
    exact claimOrder.length_selectTop
  · exact hids.nodup_iff.mpr
      (t.jobs.nodup_map_key (rows_nodup hinvt hc) (rows_current hinvt hc))
  · intro job hjob
    obtain ⟨r, hr, rfl⟩ := List.mem_map.mp (hperm.mem_iff.mp hjob)
    obtain ⟨hmem, hfree⟩ := mem_candidates_iff_free.mp (mem_candidates_of_mem_rows hr)
    exact ⟨r, hmem, hfree, rfl⟩
  · intro r hmem hfree hnot job hjob
    have hr := mem_candidates_iff_free.mpr ⟨hmem, hfree⟩
    obtain ⟨r', hr', rfl⟩ := List.mem_map.mp (hperm.mem_iff.mp hjob)
    have hleft : r ∉ (s.openClaim tx limit.toNat rank).rows := fun hmem =>
      hnot (hids.mem_iff.mpr (List.mem_map_of_mem hmem))
    -- a claim changes neither the priority of a row nor the time it was created
    have hle : claimOrder.le r' r = true := claimOrder.le_of_not_mem_selectTop hr' hr hleft
    have hrecord : recordOrder.le (rowToRecord r') (rowToRecord r) = true := hle
    exact ranks_of_le hrecord
  · rw [hjobs]
    exact (JobRepository.dispatchRows_sorted _ _ _ _).imp ranks_of_le

/-- **Claims are exclusive and take the best rows**, for any number of claims
side by side with each other and with everything else that writes the table. -/
theorem claims_exclusive_and_fair (T : Jobs) :
    Exclusive (State.start T) ∧ Fair (State.start T) :=
  ⟨exclusive T, fair T⟩

/-! ## Two claims side by side -/

namespace SideBySide

def body (priority : ℕ) : EnqueueJobRequest :=
  ⟨"tenant", priority, none, none, EnqueueJobRequest.tenant_ne⟩

def enqueued : List Action := [.enqueue "low" (body 1) 10, .enqueue "high" (body 9) 11]

/-- Another claim begins and commits while the first one is open. -/
def overtaken : List Action :=
  [.claimBegin 1 1 (fun _ => 0), .claimBegin 2 1 (fun _ => 0), .claimCommit 2 .quiet 20]

/-- An operator puts the job back into `queued`, and a scheduler reads it. -/
def putBack : List Action := [.updateState "high" .queued 40, .markRead "high"]

end SideBySide

/-- The first claim has the best job, and after it was put back the job is claimed once more. -/
theorem claims_exclusive_and_fair_sideBySide :
    ∃ s t u jobs, machine.run (.start .empty) SideBySide.enqueued = some s ∧
      machine.run s SideBySide.overtaken = some t ∧
      t.stepReturning (.claimCommit 1 .quiet 30) = some (u, jobs) ∧
      jobs.map JobRecord.jobId = ["high"] ∧ FairChoice s 1 30 jobs ∧
      ∃ before c after w w', SideBySide.putBack = before ++ c :: after ∧
        machine.run u before = some w ∧ w.step c = some w' ∧
          ¬ w.Queued "high" ∧ w'.Queued "high" := by
  have hall : ((machine.run (.start .empty) SideBySide.enqueued).any fun s =>
      (machine.run s SideBySide.overtaken).any fun t =>
        (t.stepReturning (.claimCommit 1 .quiet 30)).any fun r =>
          decide (r.2.map JobRecord.jobId = ["high"]) &&
            (machine.run r.1 SideBySide.putBack).any fun v =>
              (v.step (.markWrite 0 50)).isSome &&
                decide ("high" ∈ v.returnedIds (.markWrite 0 50))) = true := by
    decide +kernel
  obtain ⟨s, hs, hall⟩ := (Option.any_eq_true _ _).mp hall
  obtain ⟨t, ht, hall⟩ := (Option.any_eq_true _ _).mp hall
  obtain ⟨⟨u, jobs⟩, hu, hall⟩ := (Option.any_eq_true _ _).mp hall
  obtain ⟨hjobs, hall⟩ := Bool.and_eq_true_iff.mp hall
  obtain ⟨v, hv, hall⟩ := (Option.any_eq_true _ _).mp hall
  obtain ⟨hmark, hreturned⟩ := Bool.and_eq_true_iff.mp hall
  obtain ⟨v', hmark⟩ := Option.isSome_iff_exists.mp hmark
  have hjobs : jobs.map JobRecord.jobId = ["high"] := of_decide_eq_true hjobs
  obtain ⟨hexclusive, hfair⟩ := claims_exclusive_and_fair .empty
  refine ⟨s, t, u, jobs, hs, ht, hu, hjobs, ?_, ?_⟩
  · refine hfair SideBySide.enqueued 1 1 (fun _ => 0)
      [.claimBegin 2 1 (fun _ => 0), .claimCommit 2 .quiet 20] .quiet 30 s t u jobs hs ht ?_ hu
    intro E now hmem
    simp at hmem
  · refine hexclusive (SideBySide.enqueued ++ SideBySide.overtaken) (.claimCommit 1 .quiet 30)
      SideBySide.putBack (.markWrite 0 50) t u v v' "high"
      (machine.run_append_iff.mpr ⟨s, hs, ht⟩) (step_eq_some_iff.mpr ⟨jobs, hu⟩) hv hmark ?_
      (of_decide_eq_true hreturned)
    rw [State.returnedIds, hu]
    show "high" ∈ jobs.map JobRecord.jobId
    rw [hjobs]
    exact List.mem_singleton_self _

end ConcurrentClaims

end KernelQ.ControlPlane
