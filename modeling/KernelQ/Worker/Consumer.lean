import KernelQ.Worker.Handler

/-!
# Consuming dispatch events

`consumer.go`, and the handler as `cmd/consumer/main.go` wires it with the
in-memory store, or without one. In `WorkerWorld` a run leaves its traces: the claimed keys, the
tasks that were executed and the messages that were published.
-/

namespace KernelQ.Worker

open KernelQ.Foundation

inductive ProcessError
  | parse (e : DispatchEventError)
  | handlerMissing
  | handle (e : HandleError)
  deriving DecidableEq

/-- `ConsumerRunner.ProcessMessage`, on the value of the message. -/
def processMessage {ω : Type} (handler : Option (DispatchEventHandler ω)) (s : Surroundings ω)
    (value : ByteArray) : Surroundings ω × Option ProcessError :=
  match parseDispatchEvent value with
  | .error e => (s, some (.parse e))
  | .ok event =>
      match handler with
      | none => (s, some .handlerMissing)
      | some handler =>
          match handler.handle s event with
          | (s, _, none) => (s, none)
          | (s, _, some e) => (s, some (.handle e))

structure WorkerWorld where
  claimed : List String
  executed : List Task := []
  published : List (String × ByteArray) := []

/-- The consumer's handler: the executor answers `outcome`, and the broker takes
every message. -/
def consumerHandler (outcome : ExecutionResult) : DispatchEventHandler WorkerWorld where
  executor := some fun world task =>
    ({ world with executed := world.executed ++ [task] }, .ok outcome)
  resultProducer := some (publishResult fun world key value =>
    ({ world with published := world.published ++ [(key, value)] }, none))
  workerName := "kernelq-go-worker"
  idempotencyStore := some fun world key ttl =>
    let r := inMemoryTryClaim world.claimed key ttl
    ({ world with claimed := r.1 }, r.2)

theorem resultWorker_consumerHandler (outcome : ExecutionResult) :
    (consumerHandler outcome).resultWorker = workerIdentity := by
  have hne : trimSpace "kernelq-go-worker" ≠ "" := by decide +kernel
  exact if_neg hne

variable {outcome : ExecutionResult} {event : DispatchEvent} {key : String} (world : WorkerWorld)
  (d e : ℕ)

theorem claim_consumerHandler
    (hkey : executionIdempotencyKey event.jobId event.attempt = .ok key) :
    (consumerHandler outcome).claim ⟨world, d, e⟩ event =
      if key ∈ world.claimed then (⟨world, d + 1, e⟩, .ok false)
      else (⟨{ world with claimed := key :: world.claimed }, d, e⟩, .ok true) := by
  have httl : 0 < (consumerHandler outcome).ttl := by
    show (0 : ℤ) < if (0 : ℤ) ≤ 0 then defaultExecutionIdempotencyTTL else 0
    decide
  have hclaim := inMemoryTryClaim_of_key hkey httl world.claimed
  simp only [DispatchEventHandler.claim, consumerHandler, hkey] at hclaim ⊢
  rw [hclaim]
  by_cases hmem : key ∈ world.claimed
  · rw [if_pos hmem, if_pos hmem]
  · rw [if_neg hmem, if_neg hmem]
    rfl

/-- A claimed key: nothing is executed, and nothing is published. -/
theorem handle_duplicate (hkey : executionIdempotencyKey event.jobId event.attempt = .ok key)
    (hmem : key ∈ world.claimed) :
    (consumerHandler outcome).handle ⟨world, d, e⟩ event =
      (⟨world, d + 1, e⟩, .duplicateSkipped, none) := by
  have hclaim : (consumerHandler outcome).claim ⟨world, d, e⟩ event =
      (⟨world, d + 1, e⟩, .ok false) :=
    (claim_consumerHandler world d e hkey).trans (if_pos hmem)
  simp only [DispatchEventHandler.handle, DispatchEventHandler.inject, consumerHandler] at hclaim ⊢
  rw [hclaim]

theorem validateTask_of_valid (hvalid : event.Valid) :
    validateTask (DispatchEventHandler.taskOf event) = .ok () := by
  have hpriority : ¬ event.priority < 0 := not_lt.mpr hvalid.priority
  unfold validateTask DispatchEventHandler.taskOf
  rw [if_neg hvalid.jobId, if_neg hvalid.tenantId, if_neg hpriority]

theorem inject_consumerHandler (s : Surroundings WorkerWorld) (point : Point) :
    (consumerHandler outcome).inject s point = (s, .ok ()) := rfl

theorem execute_consumerHandler (hvalid : event.Valid)
    (hstatus : outcome.status ∈ executionStatuses)
    {executor : WorkerWorld → Task → WorkerWorld × Except String ExecutionResult}
    (hexecutor : (consumerHandler outcome).executor = some executor) :
    (consumerHandler outcome).execute executor ⟨world, d, e⟩ event =
      (⟨{ world with executed := world.executed ++ [DispatchEventHandler.taskOf event] }, d, e⟩,
        .ok outcome) := by
  cases hexecutor
  have hresult : outcome.validate = .ok () := if_pos hstatus
  simp only [DispatchEventHandler.execute, inject_consumerHandler, validateTask_of_valid hvalid,
    hresult]

theorem publish_consumerHandler (hvalid : event.Valid) (hstatus : outcome.status ∈ resultStatuses) :
    ∃ text, (newWorkerResultEvent event.jobId outcome workerIdentity).toJSON = .ok text ∧
      (consumerHandler outcome).publish ⟨world, d, e⟩ event outcome =
        (⟨{ world with published := world.published ++ [(event.jobId, text.toUTF8)] }, d, e⟩,
          .ok ()) := by
  have hname : trimSpace workerIdentity ≠ "" := by decide +kernel
  have hevent : (newWorkerResultEvent event.jobId outcome workerIdentity).validate = .ok () :=
    WorkerResultEvent.validate_eq_ok_iff.mpr ⟨rfl, hvalid.jobId, hstatus, hname⟩
  have htext := WorkerResultEvent.toJSON_eq_ok_iff.mpr ⟨hevent, rfl⟩
  have hskip : outcome.status ≠ executionDuplicateSkipped := by
    intro h
    rw [h] at hstatus
    exact absurd hstatus (by decide)
  have hresult : (consumerHandler outcome).resultEvent event outcome =
      newWorkerResultEvent event.jobId outcome workerIdentity := by
    rw [DispatchEventHandler.resultEvent, resultWorker_consumerHandler]
  have hproducer : (consumerHandler outcome).resultProducer =
      some (publishResult fun world key value =>
        ({ world with published := world.published ++ [(key, value)] }, none)) := rfl
  refine ⟨_, htext, ?_⟩
  simp only [DispatchEventHandler.publish, hproducer, if_neg hskip, inject_consumerHandler, hresult,
    publishResult, hevent, htext]
  rfl

/-- A new key: the task is executed, and its result is published. -/
theorem handle_fresh (hvalid : event.Valid) (hstatus : outcome.status ∈ resultStatuses)
    (hkey : executionIdempotencyKey event.jobId event.attempt = .ok key)
    (hmem : key ∉ world.claimed) :
    ∃ text, (newWorkerResultEvent event.jobId outcome workerIdentity).toJSON = .ok text ∧
      (consumerHandler outcome).handle ⟨world, d, e⟩ event =
        (⟨⟨key :: world.claimed, world.executed ++ [DispatchEventHandler.taskOf event],
            world.published ++ [(event.jobId, text.toUTF8)]⟩, d, e⟩, outcome, none) := by
  have hclaim : (consumerHandler outcome).claim ⟨world, d, e⟩ event =
      (⟨{ world with claimed := key :: world.claimed }, d, e⟩, .ok true) :=
    (claim_consumerHandler world d e hkey).trans (if_neg hmem)
  have hknown : outcome.status ∈ executionStatuses := List.mem_append_left _ hstatus
  obtain ⟨executor, hexecutor⟩ : ∃ executor, (consumerHandler outcome).executor = some executor :=
    ⟨_, rfl⟩
  obtain ⟨text, htext, hpublish⟩ := publish_consumerHandler
    ⟨key :: world.claimed, world.executed ++ [DispatchEventHandler.taskOf event],
      world.published⟩ d e hvalid hstatus
  refine ⟨text, htext, ?_⟩
  simp only [DispatchEventHandler.handle, hexecutor, inject_consumerHandler, hclaim,
    execute_consumerHandler _ d e hvalid hknown hexecutor, hpublish]

/-! ## Without a store -/

/-- The handler as `main` wires it by default: the store is disabled. -/
def storelessHandler (outcome : ExecutionResult) : DispatchEventHandler WorkerWorld :=
  { consumerHandler outcome with idempotencyStore := none }

/-- Every event is executed, and its result is published. -/
theorem handle_storeless (hvalid : event.Valid) (hstatus : outcome.status ∈ resultStatuses) :
    ∃ text, (newWorkerResultEvent event.jobId outcome workerIdentity).toJSON = .ok text ∧
      (storelessHandler outcome).handle ⟨world, d, e⟩ event =
        (⟨⟨world.claimed, world.executed ++ [DispatchEventHandler.taskOf event],
            world.published ++ [(event.jobId, text.toUTF8)]⟩, d, e⟩, outcome, none) := by
  have hknown : outcome.status ∈ executionStatuses := List.mem_append_left _ hstatus
  obtain ⟨executor, hexecutor⟩ : ∃ executor, (consumerHandler outcome).executor = some executor :=
    ⟨_, rfl⟩
  -- only the claim looks at the store
  have hexecute : (storelessHandler outcome).execute executor ⟨world, d, e⟩ event = _ :=
    execute_consumerHandler world d e hvalid hknown hexecutor
  obtain ⟨text, htext, hpublish⟩ := publish_consumerHandler
    ⟨world.claimed, world.executed ++ [DispatchEventHandler.taskOf event], world.published⟩ d e
    hvalid hstatus
  have hpublish' : (storelessHandler outcome).publish _ event outcome = _ := hpublish
  have hexecutor' : (storelessHandler outcome).executor = some executor := hexecutor
  have hinject : (storelessHandler outcome).inject ⟨world, d, e⟩ .beforeClaim =
      (⟨world, d, e⟩, .ok ()) := rfl
  have hclaim : (storelessHandler outcome).claim ⟨world, d, e⟩ event =
      (⟨world, d, e⟩, .ok true) := rfl
  refine ⟨text, htext, ?_⟩
  simp only [DispatchEventHandler.handle, hexecutor', hinject, hclaim, hexecute, hpublish']

end KernelQ.Worker
