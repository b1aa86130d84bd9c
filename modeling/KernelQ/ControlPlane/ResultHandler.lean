import KernelQ.ControlPlane.JobRepository
import KernelQ.ControlPlane.ResultEvent

/-!
# Applying a worker result

`result_handler.py`: one `UPDATE` per result, chosen by its status.
`find?_handle` is all that the rest of the development uses of it.
-/

namespace KernelQ.ControlPlane

open KernelQ.Foundation

/-- The `ValueError`s of `handle`. -/
inductive HandlerError
  | jobNotFound (jobId : String)
  | unknownStatus (status : String)
  deriving DecidableEq

namespace ResultStateHandler

def mapResultStatusToJobState (status : String) : Except HandlerError String :=
  if status = "succeeded" then .ok JobState.succeeded.value
  else if status = "terminal_failure" then .ok JobState.failed.value
  else .error (.unknownStatus status)

def handle (T : Jobs) (now clock : ℤ) (event : WorkerResultEvent) :
    Jobs × Except HandlerError Unit :=
  if event.status = "retryable_failure" then
    match JobRepository.scheduleRetryFromWorkerResult T now clock event.jobId
        JobRepository.defaultRetryDelaySeconds with
    | (T', none) => (T', .error (.jobNotFound event.jobId))
    | (T', some _) => (T', .ok ())
  else
    match mapResultStatusToJobState event.status with
    | .error e => (T, .error e)
    | .ok newState =>
        match JobRepository.updateJobStateFromWorkerResult T now event.jobId newState with
        | (T', true) => (T', .ok ())
        | (T', false) => (T', .error (.jobNotFound event.jobId))

/-- The `SET` clause a result with an allowed status is applied with. -/
def resultUpdate (event : WorkerResultEvent) (now clock : ℤ) : JobUpdate :=
  if event.status = "retryable_failure" then
    setRetryPolicy (clock + JobRepository.defaultRetryDelaySeconds) now
  else if event.status = "succeeded" then setState JobState.succeeded.value now
  else setState JobState.failed.value now

theorem handle_eq (T : Jobs) (now clock : ℤ) {event : WorkerResultEvent} (hv : event.Valid) :
    handle T now clock event =
      ((JobRepository.updateRow T event.jobId (fun _ => true) (resultUpdate event now clock)).1,
        if (T.find? event.jobId).isSome then .ok () else .error (.jobNotFound event.jobId)) := by
  have hrow := JobRepository.snd_updateRow_true T event.jobId
  have hstatus := hv.status
  simp only [allowedStatuses, List.mem_cons, List.not_mem_nil, or_false] at hstatus
  rcases hstatus with hs | hs | hs <;>
    cases hfind : T.find? event.jobId <;>
    simp [handle, resultUpdate, mapResultStatusToJobState, hs,
      JobRepository.scheduleRetryFromWorkerResult, JobRepository.updateJobStateFromWorkerResult,
      hrow, hfind]

/-- **A result touches the row of its job only.** -/
theorem find?_handle (T : Jobs) (now clock : ℤ) {event : WorkerResultEvent} (hv : event.Valid)
    (k : String) : (handle T now clock event).1.find? k =
      if k = event.jobId then (T.find? k).map (resultUpdate event now clock).set
      else T.find? k := by
  rw [handle_eq T now clock hv, JobRepository.find?_updateRow]
  simp

/-- `handle` raises exactly when the job is missing. -/
theorem handle_ok_iff (T : Jobs) (now clock : ℤ) {event : WorkerResultEvent} (hv : event.Valid) :
    (handle T now clock event).2 = .ok () ↔ ∃ r, T.find? event.jobId = some r := by
  rw [handle_eq T now clock hv]
  cases hfind : T.find? event.jobId <;> simp

end ResultStateHandler

end KernelQ.ControlPlane
