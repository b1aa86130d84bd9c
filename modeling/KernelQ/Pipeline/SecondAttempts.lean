import KernelQ.Pipeline.Provenance

/-!
# Second attempts

The worker and the control plane read attempt 0 off every message, so their keys name a job and
not one of its attempts. As long as no key expires the pipeline gives a job one shot: it is
executed at most once, one result at most is applied for it, and its `retry_count` stays below 2
(`one_shot`). A job that is dispatched a second time stays `dispatched` for good
(`redispatched_for_good`).
-/

namespace KernelQ.Pipeline

open KernelQ.Foundation KernelQ.ControlPlane
open Worker (ExecutionResult)

/-- **One shot per job** in a state of the pipeline. -/
structure OneShot (s : State) : Prop where
  executed : (s.executions.map fun e => Worker.trimSpace e.2.jobId).Nodup
  applied : (s.applied.map fun g => strip g.1).Nodup
  retryCount : ∀ r ∈ s.system.jobs.rows, r.retryCount ≤ 1
  /-- No retry budget is ever used up, unless it is empty. -/
  deadLettered : ∀ r ∈ s.system.jobs.rows, r.state = JobState.deadLettered.value →
    r.maxRetries = 0

/-- No request has been checked that would change the job's state. -/
def Settled (system : System) (jobId : String) : Prop :=
  ∀ q, Request.transition q jobId ∉ system.pending

/-! ## Keys -/

/-- Every unit has a key that only it has. -/
theorem nodup_of_taken {υ β : Type} {key : υ → Except β String} {f : υ → String}
    {claimed : List String} {done : List υ} {u : υ} {k : String}
    (htaken : Taken key claimed done) (hnodup : (done.map f).Nodup) (hfree : k ∉ claimed)
    (hsame : ∀ v, f v = f u → key v = .ok k) : ((done ++ [u]).map f).Nodup := by
  rw [List.map_append, List.map_singleton, List.nodup_append]
  refine ⟨hnodup, List.nodup_singleton _, ?_⟩
  intro x hx y hy hxy
  obtain ⟨v, hv, rfl⟩ := List.mem_map.mp hx
  rw [List.mem_singleton.mp hy] at hxy
  exact hfree (htaken.mem hv (hsame v hxy))

theorem executionKeyOf_congr {g g' : Generation} (h : Worker.trimSpace g.1 = Worker.trimSpace g'.1) :
    executionKeyOf g = executionKeyOf g' := by
  simp only [executionKeyOf, Worker.executionIdempotencyKey, h]

theorem resultKeyOf_congr {g g' : Generation} (h : strip g.1 = strip g'.1) :
    resultKeyOf g = resultKeyOf g' := by
  simp only [resultKeyOf, workerResultKey, attemptKey, validateJobId, h]

/-! ## The invariant -/

/-- The row was tried once at most; if it is to be tried again, its result key is claimed. -/
structure TriedOnce (resultKeys : List String) (r : JobRow) : Prop where
  retryCount : r.retryCount ≤ 1
  credited : r.retryCount ≠ 0 → ∃ key ∈ resultKeys, resultKeyOf (r.jobId, 0) = .ok key
  deadLettered : r.state = JobState.deadLettered.value → r.maxRetries = 0

structure Once (s : State) : Prop where
  traced : Traced s
  executed : (s.executions.map fun e => Worker.trimSpace e.1.1).Nodup
  applied : (s.applied.map fun g => strip g.1).Nodup
  rows : ∀ r ∈ s.system.jobs.rows, TriedOnce s.resultKeys r

theorem once_start : Once .start where
  traced := traced_start
  executed := List.nodup_nil
  applied := List.nodup_nil
  rows r hr := by cases hr

theorem Once.oneShot {s : State} (hs : Once s) : OneShot s where
  executed := by
    have hids : (s.executions.map fun e => Worker.trimSpace e.2.jobId) =
        s.executions.map fun e => Worker.trimSpace e.1.1 := by
      apply List.map_congr_left
      intro e he
      obtain ⟨m, -, heq, -, hcarries⟩ := hs.traced.executed e he
      rw [hcarries.jobId, heq]
      rfl
    rw [hids]
    exact hs.executed
  applied := hs.applied
  retryCount r hr := (hs.rows r hr).retryCount
  deadLettered r hr := (hs.rows r hr).deadLettered

section Steps

variable {s t : State} {repr : Json → String} {sys sys' : System} {a : ControlPlane.Action}
  {keys : List String}

theorem TriedOnce.mono {keys' : List String} {r : JobRow} (h : TriedOnce keys r)
    (hsub : keys ⊆ keys') : TriedOnce keys' r :=
  { h with
    credited := fun hcount => by
      obtain ⟨key, hkey, heq⟩ := h.credited hcount
      exact ⟨key, hsub hkey, heq⟩ }

/-- Another state changes nothing, unless it is `dead_lettered`. -/
theorem TriedOnce.live {r r' : JobRow} (h : TriedOnce keys r) (hid : r'.jobId = r.jobId)
    (hcount : r'.retryCount = r.retryCount) {x : JobState} (hstate : r'.state = x.value)
    (hlive : x ≠ .deadLettered) : TriedOnce keys r' where
  retryCount := hcount ▸ h.retryCount
  credited hne := by
    rw [hcount] at hne
    rw [hid]
    exact h.credited hne
  deadLettered hdead := by
    rw [hstate] at hdead
    exact absurd (JobState.value_inj.mp hdead) hlive

/-- A change of a row that is no result. -/
theorem TriedOnce.rowChange {r r' : JobRow} (h : TriedOnce keys r)
    (hchange : System.RowChange sys a (some r) (some r'))
    (hresult : ∀ event now clock, a ≠ .result event now clock) : TriedOnce keys r' := by
  cases hchange with
  | same => exact h
  | written hi =>
      rename_i q
      refine h.live rfl rfl (x := q.target) rfl ?_
      cases q <;> decide
  | claimed hr => exact h.live rfl rfl (x := .dispatched) rfl (by decide)
  | scanned hr => exact h.live rfl rfl (x := .queued) rfl (by decide)
  | requeued hr => exact h.live rfl rfl (x := .queued) rfl (by decide)
  | applied hr => exact absurd rfl (hresult _ _ _)

theorem rows_of_step (hs : ∀ r ∈ sys.jobs.rows, TriedOnce keys r) (h : sys.step a = some sys')
    (hresult : ∀ event now clock, a ≠ .result event now clock) :
    ∀ r ∈ sys'.jobs.rows, TriedOnce keys r := by
  intro r' hr'
  have hchange := System.step_rowChange h r'.jobId
  rw [KeyedTable.find?_of_mem hr'] at hchange
  generalize ho : sys.jobs.find? r'.jobId = o at hchange
  cases o with
  | none =>
      cases hchange with
      | created hi hr htenant =>
          refine ⟨?_, fun hcount => absurd hr.retryCount hcount, fun hdead => ?_⟩
          · rw [hr.retryCount]
            exact Nat.zero_le 1
          · rw [hr.state_eq] at hdead
            exact absurd hdead (by decide)
  | some r =>
      exact (hs r (KeyedTable.find?_eq_some_iff.mp ho).1).rowChange hchange hresult

/-- **The first result of a row** uses up its key. -/
theorem TriedOnce.resultUpdate {r : JobRow} {event : WorkerResultEvent} {now clock : ℤ}
    {key : String} (h : TriedOnce keys r) (hkey : resultKeyOf (r.jobId, 0) = .ok key)
    (hfree : key ∉ keys) :
    TriedOnce (key :: keys) ((ResultStateHandler.resultUpdate event now clock).set r) := by
  have hzero : r.retryCount = 0 := by
    by_contra hcount
    obtain ⟨key', hmem, hkey'⟩ := h.credited hcount
    rw [hkey] at hkey'
    cases hkey'
    exact hfree hmem
  have hcredited : ∃ key' ∈ key :: keys, resultKeyOf (r.jobId, 0) = .ok key' :=
    ⟨key, List.mem_cons_self, hkey⟩
  unfold ResultStateHandler.resultUpdate
  split
  · by_cases hbudget : r.retryCount < r.maxRetries
    · refine ⟨?_, fun _ => hcredited, ?_⟩
      · show (if r.retryCount < r.maxRetries then r.retryCount + 1 else r.retryCount) ≤ 1
        rw [if_pos hbudget]
        omega
      · intro hdead
        simp only [setRetryPolicy, if_pos hbudget] at hdead
        exact absurd hdead (by decide)
    · refine ⟨?_, fun _ => hcredited, fun _ => ?_⟩
      · show (if r.retryCount < r.maxRetries then r.retryCount + 1 else r.retryCount) ≤ 1
        rw [if_neg hbudget]
        exact h.retryCount
      · show r.maxRetries = 0
        omega
  · have hgrown := h.mono (List.subset_cons_self key keys)
    split
    · exact hgrown.live rfl rfl (x := .succeeded) rfl (by decide)
    · exact hgrown.live rfl rfl (x := .failed) rfl (by decide)

theorem Once.onTable (hs : Once s) (a : Action)
    (hstep : (a.onTable.bind s.system.step).map (fun system => { s with system }) = some t) :
    Once t := by
  have htraced := hs.traced.onTable a hstep
  obtain ⟨system, hsystem, rfl⟩ := Option.map_eq_some_iff.mp hstep
  obtain ⟨b, hb, hbstep⟩ := Option.bind_eq_some_iff.mp hsystem
  exact { hs with
    traced := htraced
    rows := rows_of_step hs.rows hbstep (onTable_ne_result hb) }

theorem Once.tick (hs : Once s) {runner : SchedulerTickRunner} {E : Executor} {now : ℤ}
    (httl : 0 < runner.dispatchDedupeTtlSeconds) : Once (s.tick runner E now) := by
  have htraced : Traced (s.tick runner E now) := hs.traced.tick httl
  obtain ⟨system, published, hstep, -, htick⟩ := tick_spec (s := s) (E := E) httl
  rw [htick] at htraced ⊢
  exact { hs with
    traced := htraced
    rows := rows_of_step hs.rows hstep fun event now clock h => by cases h }

theorem Once.deliverDispatch (hs : Once s) {m : Dispatch} {outcome : ExecutionResult}
    (hm : m ∈ s.dispatches) (hstatus : outcome.status ∈ Worker.resultStatuses) :
    Once (s.deliverDispatch m outcome) := by
  have htraced := hs.traced.deliverDispatch hm hstatus
  rcases deliverDispatch_cases (s := s) (hs.traced.posted m hm).sent hstatus with
    hsame | ⟨key, task, text, hkey, hfree, -, -, hdeliver⟩
  · rwa [hsame]
  rw [hdeliver] at htraced ⊢
  refine { hs with
    traced := htraced
    executed := ?_ }
  have hnodup := hs.executed
  rw [← Function.comp_def (fun g : Generation => Worker.trimSpace g.1) Prod.fst,
    ← List.map_map] at hnodup ⊢
  rw [List.map_append]
  exact nodup_of_taken hs.traced.taken hnodup hfree fun v hv =>
    (executionKeyOf_congr hv).trans hkey

theorem Once.deliverResult (hs : Once s) {m : Result} (hm : m ∈ s.results) (now clock : ℤ) :
    Once (s.deliverResult repr m now clock) := by
  have htraced : Traced (s.deliverResult repr m now clock) := hs.traced.deliverResult hm now clock
  rcases hs.traced.deliverResult_cases hm now clock with
    hsame | ⟨key, event, system, hkey, hfree, heventid, hstep, hdeliver⟩
  · rwa [hsame]
  rw [hdeliver] at htraced ⊢
  refine { hs with
    traced := htraced
    applied := ?_
    rows := ?_ }
  · exact nodup_of_taken hs.traced.credited hs.applied hfree fun v hv =>
      (resultKeyOf_congr hv).trans hkey
  · intro r' hr'
    have hgrown : ∀ r ∈ s.system.jobs.rows, TriedOnce (key :: s.resultKeys) r :=
      fun r hr => (hs.rows r hr).mono (List.subset_cons_self _ _)
    have hchange := System.step_rowChange hstep r'.jobId
    rw [KeyedTable.find?_of_mem hr'] at hchange
    generalize ho : s.system.jobs.find? r'.jobId = o at hchange
    cases hchange with
    | same => exact hgrown r' (KeyedTable.find?_eq_some_iff.mp ho).1
    | applied hjob =>
        rename_i r
        refine (hs.rows r (KeyedTable.find?_eq_some_iff.mp ho).1).resultUpdate ?_ hfree
        rw [← hkey]
        apply resultKeyOf_congr
        rw [hjob, heventid]

theorem Once.step (hs : Once s) {a : Action} (hstep : s.step repr a = some t) : Once t := by
  cases a with
  | tick runner E now =>
      obtain ⟨httl, rfl⟩ := step_tick_iff.mp hstep
      exact hs.tick httl
  | deliverDispatch i outcome =>
      obtain ⟨hstatus, m, hm, rfl⟩ := step_deliverDispatch_iff.mp hstep
      exact hs.deliverDispatch (List.mem_of_getElem? hm) hstatus
  | deliverResult i now clock =>
      obtain ⟨m, hm, rfl⟩ := Option.map_eq_some_iff.mp hstep
      exact hs.deliverResult (List.mem_of_getElem? hm) now clock
  | request q => exact hs.onTable (.request q) hstep
  | write i now => exact hs.onTable (.write i now) hstep
  | scan E stamp now limit => exact hs.onTable (.scan E stamp now limit) hstep
  | requeueDeadLettered jobId now => exact hs.onTable (.requeueDeadLettered jobId now) hstep

end Steps

theorem once_of_run {repr : Json → String} {as : List Action} {s : State}
    (h : (machine repr).run .start as = some s) : Once s :=
  Machine.run_invariant (fun _ _ _ hs hstep => hs.step hstep) once_start h

/-- **A job has one shot** in any run of the pipeline. -/
theorem one_shot {repr : Json → String} {as : List Action} {s : State}
    (h : (machine repr).run .start as = some s) : OneShot s :=
  (once_of_run h).oneShot

/-! ## The second dispatch -/

/-- The job is waiting for the result of a second attempt. -/
structure Redispatched (s : State) (r : JobRow) : Prop where
  once : Once s
  row : s.system.jobs.find? r.jobId = some r
  retryCount : r.retryCount ≠ 0
  state : r.state = JobState.dispatched.value
  settled : Settled s.system r.jobId

section Stuck

variable {s t : State} {repr : Json → String} {r : JobRow}

theorem not_allows_dispatched (hstate : r.state = JobState.dispatched.value) (q : Api.Transition) :
    ¬ Api.Allows q.target r := by
  rintro ⟨current, hcurrent, hallowed⟩
  rw [hstate] at hcurrent
  cases hcurrent
  cases q <;> exact absurd hallowed (by decide)

/-- Only a write of a checked request, or a result, changes a dispatched row. -/
theorem same_of_rowChange {sys : System} {a : ControlPlane.Action} {o : Option JobRow}
    (hchange : System.RowChange sys a (some r) o) (hstate : r.state = JobState.dispatched.value)
    (hsettled : Settled sys r.jobId)
    (hresult : ∀ event now clock, a = .result event now clock → event.1.jobId ≠ r.jobId) :
    o = some r := by
  cases hchange with
  | same => rfl
  | written hi => exact absurd (List.mem_of_getElem? hi) (hsettled _)
  | claimed hr =>
      have hqueued := (JobRepository.mem_schedulableRows hr).2.1
      rw [hstate] at hqueued
      exact absurd hqueued (by decide)
  | applied hid => exact absurd hid.symm (hresult _ _ _ rfl)
  | scanned hr =>
      have hdue := (JobRepository.mem_dueRows hr).2.1
      simp only [JobRepository.isDue, hstate, Bool.and_eq_true, decide_eq_true_eq] at hdue
      exact absurd hdue.1 (by decide)
  | requeued hdead =>
      rw [hstate] at hdead
      exact absurd hdead (by decide)

theorem settled_of_step {sys sys' : System} {a : ControlPlane.Action} (h : sys.step a = some sys')
    (hrow : sys.jobs.find? r.jobId = some r) (hstate : r.state = JobState.dispatched.value)
    (hsettled : Settled sys r.jobId) : Settled sys' r.jobId := by
  intro q hq
  cases a with
  | request q' =>
      simp only [System.step] at h
      split at h
      · rename_i hcheck
        cases h
        rcases List.mem_append.mp hq with hq | hq
        · exact hsettled q hq
        · -- the check would have refused it
          rw [← List.mem_singleton.mp hq] at hcheck
          obtain ⟨r', hr', hallows⟩ := Api.transitionCheck_ok_iff.mp hcheck
          rw [hrow] at hr'
          cases hr'
          exact not_allows_dispatched hstate q hallows
      · cases h
        exact hsettled q hq
  | write i now =>
      simp only [System.step, Option.map_eq_some_iff] at h
      obtain ⟨q', -, rfl⟩ := h
      exact hsettled q (List.mem_of_mem_eraseIdx hq)
  | _ =>
      cases h
      exact hsettled q hq

theorem Redispatched.system (hs : Redispatched s r) {a : ControlPlane.Action} {system : System}
    (hstep : s.system.step a = some system)
    (hresult : ∀ event now clock, a = .result event now clock → event.1.jobId ≠ r.jobId) :
    system.jobs.find? r.jobId = some r ∧ Settled system r.jobId := by
  refine ⟨?_, settled_of_step hstep hs.row hs.state hs.settled⟩
  have hchange := System.step_rowChange hstep r.jobId
  rw [hs.row] at hchange
  exact same_of_rowChange hchange hs.state hs.settled hresult

theorem Redispatched.onTable (hs : Redispatched s r) (a : Action)
    (hstep : (a.onTable.bind s.system.step).map (fun system => { s with system }) = some t) :
    t.system.jobs.find? r.jobId = some r ∧ Settled t.system r.jobId := by
  obtain ⟨system, hsystem, rfl⟩ := Option.map_eq_some_iff.mp hstep
  obtain ⟨b, hb, hbstep⟩ := Option.bind_eq_some_iff.mp hsystem
  exact hs.system hbstep fun event now clock h => absurd h (onTable_ne_result hb event now clock)

/-- **Whatever happens**, the row stays as it is. -/
theorem Redispatched.step (hs : Redispatched s r) {a : Action}
    (hstep : s.step repr a = some t) : Redispatched t r := by
  suffices h : t.system.jobs.find? r.jobId = some r ∧ Settled t.system r.jobId from
    ⟨hs.once.step hstep, h.1, hs.retryCount, hs.state, h.2⟩
  cases a with
  | tick runner E now =>
      obtain ⟨httl, rfl⟩ := step_tick_iff.mp hstep
      obtain ⟨system, published, hclaim, -, htick⟩ := tick_spec (s := s) (E := E) httl
      rw [htick]
      exact hs.system hclaim fun event now clock h => by cases h
  | deliverDispatch i outcome =>
      obtain ⟨hstatus, m, hm, rfl⟩ := step_deliverDispatch_iff.mp hstep
      have hposted := hs.once.traced.posted m (List.mem_of_getElem? hm)
      rcases deliverDispatch_cases (s := s) hposted.sent hstatus with
        hsame | ⟨key, task, text, -, -, -, -, hdeliver⟩
      · rw [hsame]
        exact ⟨hs.row, hs.settled⟩
      · rw [hdeliver]
        exact ⟨hs.row, hs.settled⟩
  | deliverResult i now clock =>
      obtain ⟨m, hm, rfl⟩ := Option.map_eq_some_iff.mp hstep
      rcases hs.once.traced.deliverResult_cases (List.mem_of_getElem? hm) now clock with
        hsame | ⟨key, event, system, hkey, hfree, heventid, hresult, hdeliver⟩
      · rw [hsame]
        exact ⟨hs.row, hs.settled⟩
      rw [hdeliver]
      refine hs.system hresult ?_
      -- the key of the row is claimed, so this is the result of another job
      rintro event' now' clock' h
      cases h
      intro hid
      have hmem := (KeyedTable.find?_eq_some_iff.mp hs.row).1
      obtain ⟨key', hclaimed, hkey'⟩ := (hs.once.rows r hmem).credited hs.retryCount
      have hpair : resultKeyOf (r.jobId, 0) = resultKeyOf m.generation := by
        apply resultKeyOf_congr
        rw [← hid, heventid]
      rw [hpair, hkey] at hkey'
      cases hkey'
      exact hfree hclaimed
  | request q => exact hs.onTable (.request q) hstep
  | write i now => exact hs.onTable (.write i now) hstep
  | scan E stamp now limit => exact hs.onTable (.scan E stamp now limit) hstep
  | requeueDeadLettered jobId now => exact hs.onTable (.requeueDeadLettered jobId now) hstep

end Stuck

/-- **A second dispatch is for good**: once a job that was tried is `dispatched` again, and no
request for it is under way, nothing changes its row any more. -/
theorem redispatched_for_good {repr : Json → String} {as bs : List Action} {s t : State}
    (h : (machine repr).run .start as = some s) {jobId : String} {r : JobRow}
    (hrow : s.system.jobs.find? jobId = some r) (hcount : r.retryCount ≠ 0)
    (hstate : r.state = JobState.dispatched.value) (hsettled : Settled s.system jobId)
    (hrun : (machine repr).run s bs = some t) : t.system.jobs.find? jobId = some r := by
  obtain rfl : r.jobId = jobId := KeyedTable.key_of_find? hrow
  have hstart : Redispatched s r := ⟨once_of_run h, hrow, hcount, hstate, hsettled⟩
  have hend : Redispatched t r :=
    Machine.run_invariant (P := fun s => Redispatched s r)
      (fun _ _ _ hs hstep => hs.step hstep) hstart hrun
  exact hend.row

/-! ## One job, retried -/

namespace OneJob

/-- The first attempt fails, and the job is dispatched again. -/
def redispatched : List Action :=
  dispatched ++
    [.deliverDispatch 0 retryable, .deliverResult 0 30 30, .scan .quiet 100 100 10,
      .tick { maxJobs_pos := defaultMaxJobs_pos } .quiet 110]

/-- The worker gets the second message, and the control plane the first result again. -/
def delivered : List Action := [.deliverDispatch 1 success, .deliverResult 0 120 120]

/-- Two runs, one behind the other, through what is observed between them. -/
theorem run_observed {β : Type} (repr : Json → String) (as bs : List Action) (jobId : String)
    (f : State → JobRow → β) (v : β)
    (h : (((machine repr).run .start as).bind fun s => ((machine repr).run s bs).bind fun _ =>
      (s.system.jobs.find? jobId).map (f s)) = some v) :
    ∃ s t r, (machine repr).run .start as = some s ∧ (machine repr).run s bs = some t ∧
      s.system.jobs.find? jobId = some r ∧ f s r = v := by
  obtain ⟨s, hs, h⟩ := Option.bind_eq_some_iff.mp h
  obtain ⟨t, ht, h⟩ := Option.bind_eq_some_iff.mp h
  obtain ⟨r, hr, h⟩ := Option.map_eq_some_iff.mp h
  exact ⟨s, t, r, hs, ht, hr, h⟩

theorem run_redispatched :
    ∃ s t r, (machine fun _ => "").run .start redispatched = some s ∧
      (machine fun _ => "").run s delivered = some t ∧
      s.system.jobs.find? "job" = some r ∧
      (r.retryCount, r.state, s.system.pending.length) = (1, JobState.dispatched.value, 0) :=
  run_observed (fun _ => "") redispatched delivered "job"
    (fun s r => (r.retryCount, r.state, s.system.pending.length)) _ (by decide +kernel)

end OneJob

theorem one_shot_redispatched : ∃ s, (machine fun _ => "").run .start OneJob.redispatched = some s ∧
    OneShot s ∧ ∃ r, s.system.jobs.find? "job" = some r ∧ r.retryCount = 1 := by
  obtain ⟨s, t, r, hs, -, hr, hseen⟩ := OneJob.run_redispatched
  exact ⟨s, hs, one_shot hs, r, hr, congrArg Prod.fst hseen⟩

theorem redispatched_for_good_delivered : ∃ s t r,
    (machine fun _ => "").run .start OneJob.redispatched = some s ∧
      (machine fun _ => "").run s OneJob.delivered = some t ∧ r.retryCount = 1 ∧
      t.system.jobs.find? "job" = some r := by
  obtain ⟨s, t, r, hs, ht, hr, hseen⟩ := OneJob.run_redispatched
  obtain ⟨hcount, hstate, hpending⟩ :
      r.retryCount = 1 ∧ r.state = JobState.dispatched.value ∧ s.system.pending.length = 0 := by
    simpa only [Prod.mk.injEq] using hseen
  have hsettled : Settled s.system "job" := by
    intro q hq
    rw [List.length_eq_zero_iff.mp hpending] at hq
    cases hq
  refine ⟨s, t, r, hs, ht, hcount, ?_⟩
  exact redispatched_for_good hs hr (by rw [hcount]; exact Nat.one_ne_zero) hstate hsettled ht

theorem nothing_made_up_redispatched :
    ∃ s, (machine fun _ => "").run .start OneJob.redispatched = some s ∧ Provenance s := by
  obtain ⟨s, t, r, hs, -⟩ := OneJob.run_redispatched
  exact ⟨s, hs, nothing_made_up hs⟩

end KernelQ.Pipeline
