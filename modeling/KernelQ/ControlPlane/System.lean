import KernelQ.Foundation.Runs
import KernelQ.ControlPlane.Api
import KernelQ.ControlPlane.ResultHandler

/-!
# The control plane as a machine

Every statement is one step. An API request takes two: its check, and later its
write; between them it is `pending` and anyone else may move. Claims, worker
results, retry scans and operator requeues take one step each.

`step_rowChange` says once what a step can do to one row. The laws over whole
runs are derived from it.
-/

namespace KernelQ.ControlPlane

open KernelQ.Foundation

inductive Request
  | transition (q : Api.Transition) (jobId : String)
  | enqueue (jobId : String) (body : EnqueueJobRequest)

namespace Request

def check (T : Jobs) : Request → Except HTTPException Unit
  | transition q jobId => Api.transitionCheck T jobId q.target
  | enqueue jobId body => Api.enqueueCheck T jobId body

def write (T : Jobs) (now : ℤ) : Request → Jobs
  | transition q jobId => (Api.transitionWrite T now jobId q.target q.message).1
  | enqueue jobId body =>
      match Api.enqueueInsert T now jobId body with
      | .ok (T', _) => T'
      | .error _ => T

end Request

/-- The jobs table, and the requests whose check has passed. -/
structure System where
  jobs : Jobs
  pending : List Request

abbrev ValidResult := { event : WorkerResultEvent // event.Valid }

inductive Action
  | request (q : Request)
  | write (i : ℕ) (now : ℤ)
  | claim (E : Executor) (now limit : ℤ)
  | result (event : ValidResult) (now clock : ℤ)
  | scan (E : Executor) (stamp now limit : ℤ)
  | requeueDeadLettered (jobId : String) (now : ℤ)

/-- The rows are as `create_job` left them, by the API or in state `created`. -/
def AllCreated (T : Jobs) : Prop :=
  ∀ r ∈ T.rows, JobRepository.Created JobState.queued.value r ∨
    JobRepository.Created JobState.created.value r

namespace System

/-- No request has been read yet. -/
def start (T : Jobs) : System := ⟨T, []⟩

/-- A method that raises leaves the table as it was. -/
def tableOf {α : Type} (T : Jobs) (r : Except PyException (Jobs × α)) : Jobs :=
  match r with
  | .ok (T', _) => T'
  | .error _ => T

def step (s : System) : Action → Option System
  | .request q =>
      match q.check s.jobs with
      | .ok () => some { s with pending := s.pending ++ [q] }
      | .error _ => some s
  | .write i now =>
      (s.pending[i]?).map fun q =>
        { jobs := q.write s.jobs now, pending := s.pending.eraseIdx i }
  | .claim E now limit =>
      some { s with jobs := tableOf s.jobs (JobRepository.claimSchedulableJobs s.jobs E now limit) }
  | .result event now clock =>
      some { s with jobs := (ResultStateHandler.handle s.jobs now clock event.1).1 }
  | .scan E stamp now limit =>
      some
        { s with jobs := tableOf s.jobs (JobRepository.requeueDueRetries s.jobs E stamp now limit) }
  | .requeueDeadLettered jobId now =>
      some { s with jobs := (JobRepository.requeueDeadLetteredJob s.jobs now jobId).1 }

def machine : Machine System Action := ⟨step⟩

/-- The row of a job at the end of a run, through what is observed of it. -/
theorem run_row {β : Type} (f : JobRow → β) (v : β) (s₀ : System) (as : List Action)
    (jobId : String)
    (h : ((machine.run s₀ as).bind fun s => (s.jobs.find? jobId).map f) = some v) :
    ∃ s r, machine.run s₀ as = some s ∧ s.jobs.find? jobId = some r ∧ f r = v := by
  obtain ⟨s, hs, h⟩ := Option.bind_eq_some_iff.mp h
  obtain ⟨r, hr, h⟩ := Option.map_eq_some_iff.mp h
  exact ⟨s, r, hs, hr, h⟩

/-! ## What a step can do to one row -/

/-- The row of one key, before and after a step. -/
inductive RowChange (s : System) : Action → Option JobRow → Option JobRow → Prop
  | same (a : Action) (o : Option JobRow) : RowChange s a o o
  | created {i : ℕ} {now : ℤ} {jobId : String} {body : EnqueueJobRequest} {r : JobRow}
      (hi : s.pending[i]? = some (.enqueue jobId body))
      (hr : JobRepository.Created JobState.queued.value r) (htenant : r.tenantId = body.tenantId) :
      RowChange s (.write i now) none (some r)
  | written {i : ℕ} {now : ℤ} {q : Api.Transition} {r : JobRow}
      (hi : s.pending[i]? = some (.transition q r.jobId)) :
      RowChange s (.write i now) (some r) (some ((setState q.target.value now).set r))
  | claimed {E : Executor} {now limit : ℤ} {r : JobRow}
      (hr : r ∈ JobRepository.schedulableRows s.jobs E limit.toNat) :
      RowChange s (.claim E now limit) (some r) (some ((setDispatched now).set r))
  | applied {event : ValidResult} {now clock : ℤ} {r : JobRow} (hr : r.jobId = event.1.jobId) :
      RowChange s (.result event now clock) (some r)
        (some ((ResultStateHandler.resultUpdate event.1 now clock).set r))
  | scanned {E : Executor} {stamp now limit : ℤ} {r : JobRow}
      (hr : r ∈ JobRepository.dueRows s.jobs E now limit.toNat) :
      RowChange s (.scan E stamp now limit) (some r)
        (some ((setState JobState.queued.value stamp).set r))
  | requeued {now : ℤ} {r : JobRow} (hr : r.state = JobState.deadLettered.value) :
      RowChange s (.requeueDeadLettered r.jobId now) (some r) (some ((setRequeued now).set r))

variable {s t : System} {a : Action}

/-- A step that maps the rows with an id in a selection changes the selected rows. -/
private theorem rowChange_of_selection {T' : Jobs} {sel : List JobRow} {u : JobUpdate}
    (hsel : ∀ r ∈ sel, r ∈ s.jobs.rows)
    (hfind : ∀ k, T'.find? k = (s.jobs.find? k).map fun r =>
      if r.jobId ∈ sel.map JobRow.jobId then u.set r else r)
    (h : ∀ r ∈ sel, RowChange s a (some r) (some (u.set r))) (k : String) :
    RowChange s a (s.jobs.find? k) (T'.find? k) := by
  rw [hfind]
  cases hk : s.jobs.find? k with
  | none => exact .same a none
  | some r =>
      have hr : r ∈ s.jobs.rows := (KeyedTable.find?_eq_some_iff.mp hk).1
      rw [Option.map_some]
      by_cases hmem : r.jobId ∈ sel.map JobRow.jobId
      · rw [if_pos hmem]
        exact h r ((s.jobs.key_mem_map_iff hsel hr).mp hmem)
      · rw [if_neg hmem]
        exact .same a (some r)

private theorem rowChange_write {i : ℕ} {now : ℤ} {q : Request} (hi : s.pending[i]? = some q)
    (k : String) : RowChange s (.write i now) (s.jobs.find? k) ((q.write s.jobs now).find? k) := by
  cases q with
  | transition q jobId =>
      show RowChange s _ _ ((Api.transitionWrite s.jobs now jobId q.target q.message).1.find? k)
      rw [Api.find?_transitionWrite]
      split
      · rename_i hjob
        cases hk : s.jobs.find? k with
        | none => exact .same _ none
        | some r =>
            have hr : r.jobId = jobId := (KeyedTable.key_of_find? hk).trans hjob
            exact .written (hr.symm ▸ hi)
      · exact .same _ _
  | enqueue jobId body =>
      show RowChange s _ _ (KeyedTable.find? (match Api.enqueueInsert s.jobs now jobId body with
        | .ok (T', _) => T'
        | .error _ => s.jobs) k)
      split
      · -- the row did not exist, and now it does
        rename_i hinsert
        obtain ⟨r, -, htenant, hr, hnone, hfind⟩ := Api.enqueueInsert_eq_ok hinsert
        rw [hfind]
        split
        · rename_i hk
          rw [← hk, hnone]
          exact .created hi hr htenant
        · exact .same _ _
      · exact .same _ _

/-- **One step, seen from one row.** -/
theorem step_rowChange (h : s.step a = some t) (k : String) :
    RowChange s a (s.jobs.find? k) (t.jobs.find? k) := by
  cases a with
  | request q =>
      -- a request is only checked here: what it writes comes with a later `write`
      simp only [step] at h
      split at h <;>
        · cases h
          exact .same _ _
  | write i now =>
      simp only [step, Option.map_eq_some_iff] at h
      obtain ⟨q, hi, rfl⟩ := h
      exact rowChange_write hi k
  | claim E now limit =>
      cases h
      show RowChange s _ _ (KeyedTable.find? (tableOf s.jobs _) k)
      cases hclaim : JobRepository.claimSchedulableJobs s.jobs E now limit with
      | error e => exact .same _ _
      | ok r =>
          obtain ⟨-, hfind, -⟩ := JobRepository.claimSchedulableJobs_eq_ok hclaim
          exact rowChange_of_selection
            (fun r hr => (JobRepository.mem_schedulableRows hr).1) hfind
            (fun r hr => .claimed hr) k
  | result event now clock =>
      cases h
      show RowChange s _ _ ((ResultStateHandler.handle s.jobs now clock event.1).1.find? k)
      rw [ResultStateHandler.find?_handle _ _ _ event.2]
      split
      · rename_i hjob
        cases hk : s.jobs.find? k with
        | none => exact .same _ none
        | some r => exact .applied ((KeyedTable.key_of_find? hk).trans hjob)
      · exact .same _ _
  | scan E stamp now limit =>
      cases h
      show RowChange s _ _ (KeyedTable.find? (tableOf s.jobs _) k)
      cases hscan : JobRepository.requeueDueRetries s.jobs E stamp now limit with
      | error e => exact .same _ _
      | ok r =>
          obtain ⟨-, hfind⟩ := JobRepository.requeueDueRetries_eq_ok hscan
          exact rowChange_of_selection
            (fun r hr => (JobRepository.mem_dueRows hr).1) hfind
            (fun r hr => .scanned hr) k
  | requeueDeadLettered jobId now =>
      cases h
      show RowChange s _ _ ((JobRepository.updateRow _ _ _ _).1.find? k)
      rw [JobRepository.find?_updateRow]
      split
      · rename_i hjob
        cases hk : s.jobs.find? k with
        | none => exact .same _ none
        | some r =>
            rw [Option.map_some]
            split
            · rename_i hstate
              obtain rfl : r.jobId = jobId := (KeyedTable.key_of_find? hk).trans hjob
              exact .requeued (of_decide_eq_true hstate)
            · exact .same _ _
      · exact .same _ _

/-- Rows stay. -/
theorem find?_of_step (h : s.step a = some t) {k : String} {r : JobRow}
    (hr : s.jobs.find? k = some r) : ∃ r', t.jobs.find? k = some r' := by
  have hchange := step_rowChange h k
  rw [hr] at hchange
  generalize t.jobs.find? k = o at hchange ⊢
  cases hchange <;> exact ⟨_, rfl⟩

end System

/-! ## One job, for scenarios -/

namespace Scenario

def body : EnqueueJobRequest := ⟨"tenant", 1, none, none, EnqueueJobRequest.tenant_ne⟩

def enqueue : List Action := [.request (.enqueue "job" body), .write 0 10]

def cancel : List Action := [.request (.transition .cancel "job"), .write 0 20]

def claim : Action := .claim .quiet 30 1

def event (status : String) (attempt : ℕ) : WorkerResultEvent :=
  ⟨"job.result", "job", status, "", "worker", .int attempt⟩

def succeeded : ValidResult := ⟨event "succeeded" 0, by decide⟩

def retryable : ValidResult := ⟨event "retryable_failure" 0, by decide⟩

def failed : ValidResult := ⟨event "terminal_failure" 0, by decide⟩

end Scenario

end KernelQ.ControlPlane
