import KernelQ.Worker.ConcurrentHandlers

/-!
# The execution service

`internal/grpc/server.go`: a request is checked and mapped onto a dispatch event, the handler
handles it, and its answer is mapped onto a response. Nothing ties the service to the
dispatch topic but the store: its calls run at once with those of a consumer, in any
interleaving, over claims that do not expire.
-/

namespace KernelQ.Worker

open KernelQ.Foundation

/-! ## The texts of the handler's errors -/

/-- `validateClaimInputs`, given the text of a duration. -/
def ClaimError.text (duration : ℤ → String) : ClaimError → String
  | keyBlank => "idempotency key must be non-empty"
  | ttl got => "idempotency ttl must be > 0, got " ++ duration got
  | backend message => message

def PublishError.text (quote : String → String) : PublishError → String
  | invalid e => e.text quote
  | backend message => message

def HandleError.text (quote : String → String) (duration : ℤ → String) : HandleError → String
  | executorMissing => "executor is not configured"
  | injected message => message
  | key e => e.text
  | claim e => "idempotency claim failed: " ++ e.text duration
  | task e => e.text
  | execute message => message
  | result e => e.text quote
  | publish e => e.text quote

namespace Grpc

open ConcurrentHandlers (WorkerOp Program Event Sound Responds Shared generation generationKey
  executes won)

/-! ## The service -/

def statusSuccess : String := "SUCCESS"

def statusFailed : String := "FAILED"

def statusDuplicateSkipped : String := "DUPLICATE_SKIPPED"

structure ExecuteRequest where
  jobId : String := ""
  attempt : Int32 := 0
  payload : Option StringMap := none

structure ExecuteResponse where
  status : String
  duplicateSkipped : Bool
  errorMessage : String
  deriving DecidableEq

inductive Code
  | unimplemented | invalidArgument
  deriving DecidableEq

/-- `status.Error`. -/
structure RpcError where
  code : Code
  message : String
  deriving DecidableEq

inductive RequestError
  | jobIdBlank
  | attempt (got : ℤ)
  deriving DecidableEq

def RequestError.text : RequestError → String
  | jobIdBlank => "job_id must not be blank"
  | attempt got => "attempt must be >= 0, got " ++ String.ofList (intText got)

def validateExecuteRequest (req : ExecuteRequest) : Except RequestError Unit :=
  if trimSpace req.jobId = "" then .error .jobIdBlank
  else if req.attempt.toInt < 0 then .error (.attempt req.attempt.toInt)
  else .ok ()

/-- The event that a request stands for. -/
def eventOf (req : ExecuteRequest) : DispatchEvent where
  eventType := "job.dispatch"
  jobId := trimSpace req.jobId
  tenantId := "grpc-internal"
  priority := 0
  state := "dispatched"
  payload := req.payload
  attempt := req.attempt.toInt

def mapExecutionResult (quote : String → String) (result : ExecutionResult) : ExecuteResponse :=
  if result.status = executionSucceeded then ⟨statusSuccess, false, result.message⟩
  else if result.status = executionDuplicateSkipped then
    ⟨statusDuplicateSkipped, true, result.message⟩
  else if result.status = executionRetryableFailure ∨ result.status = executionTerminalFailure then
    ⟨statusFailed, false, result.message⟩
  else ⟨statusFailed, false, "unknown execution status " ++ quote result.status⟩

structure Server (ω : Type) where
  handler : Option (DispatchEventHandler ω)

section

variable {ω : Type} (quote : String → String) (duration : ℤ → String) (server : Server ω)

/-- Up to the call of the handler. -/
def Server.accept (req : Option ExecuteRequest) :
    Except RpcError (DispatchEventHandler ω × DispatchEvent) :=
  match server.handler, req with
  | none, _ => .error ⟨.unimplemented, "execution handler not wired"⟩
  | some _, none => .error ⟨.invalidArgument, "request is required"⟩
  | some handler, some req =>
      match validateExecuteRequest req with
      | .error e => .error ⟨.invalidArgument, e.text⟩
      | .ok () => .ok (handler, eventOf req)

/-- Behind the call of the handler. -/
def response : ExecutionResult × Option HandleError → ExecuteResponse
  | (_, some err) => ⟨statusFailed, false, err.text quote duration⟩
  | (result, none) => mapExecutionResult quote result

def Server.execute (s : Surroundings ω) (req : Option ExecuteRequest) :
    Surroundings ω × Except RpcError ExecuteResponse :=
  match server.accept req with
  | .error e => (s, .error e)
  | .ok (handler, event) =>
      match handler.handle s event with
      | (s, answer) => (s, .ok (response quote duration answer))

/-! ## Beside a consumer -/

inductive Call
  | rpc (req : Option ExecuteRequest)
  | dispatch (event : DispatchEvent)

inductive Reply
  | refused (e : RpcError)
  | response (r : ExecuteResponse)
  | handled (answer : ExecutionResult × Option HandleError)
  deriving DecidableEq

variable (consumer : DispatchEventHandler ω)

/-- Who handles a call, and as what. -/
def handling : Call → Except RpcError (DispatchEventHandler ω × DispatchEvent)
  | .rpc req => server.accept req
  | .dispatch event => .ok (consumer, event)

def reply : Call → ExecutionResult × Option HandleError → Reply
  | .rpc _, answer => .response (response quote duration answer)
  | .dispatch _, answer => .handled answer

def program (c : Call) : Program Reply :=
  match handling server consumer c with
  | .error e => .ret (.refused e)
  | .ok (handler, event) =>
      (ConcurrentHandlers.program handler event).bind fun answer =>
        .ret (reply quote duration c answer)

variable {quote duration server consumer}

/-- What is accepted. -/
theorem Server.accept_eq_ok_iff {req : Option ExecuteRequest} {handler : DispatchEventHandler ω}
    {event : DispatchEvent} : server.accept req = .ok (handler, event) ↔
      server.handler = some handler ∧ ∃ r, req = some r ∧ trimSpace r.jobId ≠ "" ∧
        0 ≤ r.attempt.toInt ∧ event = eventOf r := by
  unfold Server.accept
  cases hhandler : server.handler with
  | none => simp
  | some h =>
      cases req with
      | none => simp
      | some r =>
          simp only [validateExecuteRequest, Option.some.injEq, exists_eq_left']
          by_cases hblank : trimSpace r.jobId = ""
          · simp [hblank]
          by_cases hattempt : r.attempt.toInt < 0
          · simp [hblank, hattempt]
          simp only [if_neg hblank, if_neg hattempt, Except.ok.injEq, Prod.mk.injEq]
          constructor
          · rintro ⟨rfl, rfl⟩
            exact ⟨rfl, hblank, not_lt.mp hattempt, rfl⟩
          · rintro ⟨rfl, -, -, rfl⟩
            exact ⟨rfl, rfl⟩

/-- **The program alone is `Execute`.** -/
theorem run_program {handler : DispatchEventHandler ω} (hhandler : server.handler = some handler)
    (s : Surroundings ω) (req : Option ExecuteRequest) :
    (program quote duration server consumer (.rpc req)).run (ConcurrentHandlers.answer handler) s =
      match server.execute quote duration s req with
      | (s, .error e) => (s, .refused e)
      | (s, .ok r) => (s, .response r) := by
  unfold program Server.execute handling
  cases haccept : server.accept req with
  | error e => simp only [haccept, Prog.run_ret]
  | ok accepted =>
      obtain ⟨handler', event⟩ := accepted
      obtain ⟨hhandler', -⟩ := Server.accept_eq_ok_iff.mp haccept
      obtain rfl := Option.some.inj (hhandler.symm.trans hhandler')
      simp only [haccept, Prog.run_bind, ConcurrentHandlers.run_program, Prog.run_ret]
      rfl

end

/-! ## What a call returns -/

section

variable {ω : Type} {handler : DispatchEventHandler ω} {event : DispatchEvent} {h : List Event}

/-- How an answer of the handler goes with the history of its call. -/
inductive Returned (handler : DispatchEventHandler ω) (event : DispatchEvent) :
    ExecutionResult × Option HandleError → List Event → Prop
  | duplicate {h : List Event} {e : Event} (he : e ∈ h)
      (hrefused : ConcurrentHandlers.refused e = true) :
      Returned handler event (.duplicateSkipped, none) h
  | executed {h : List Event} {result : ExecutionResult}
      (hexecuted : ⟨.execute (DispatchEventHandler.taskOf event), .ok result⟩ ∈ h)
      (hvalid : result.validate = .ok ())
      (hpublished : handler.resultProducer.isSome → result.status ≠ executionDuplicateSkipped →
        ⟨.publishResult (handler.resultEvent event result), .ok ()⟩ ∈ h) :
      Returned handler event (result, none) h
  | failed {h : List Event} (result : ExecutionResult) (e : HandleError) :
      Returned handler event (result, some e) h

theorem returns_claim : (ConcurrentHandlers.claim handler event).Always (fun _ => True)
    (fun a h' => a = .ok false → ∃ e ∈ h', ConcurrentHandlers.refused e = true) h := by
  unfold ConcurrentHandlers.claim
  cases handler.idempotencyStore with
  | none => exact .ret trivial (by simp)
  | some _ =>
      cases executionIdempotencyKey event.jobId event.attempt with
      | error e => exact .ret trivial (by simp)
      | ok key =>
          refine .op trivial ?_
          rintro (e | _ | _)
          · exact .op trivial fun _ => .ret trivial (by simp)
          · refine .op trivial fun _ => .ret trivial fun _ => ?_
            exact ⟨⟨.tryClaim key handler.ttl, .ok false⟩, by simp, rfl⟩
          · refine .bind ((Prog.Always.trivial _).mono ?_)
            rintro (e | _) h' - -
            · exact .ret trivial (by simp)
            · exact .ret trivial (by simp)

theorem returns_execute : (ConcurrentHandlers.execute handler event).Always (fun _ => True)
    (fun a h' => ∀ result, a = .ok result →
      ⟨.execute (DispatchEventHandler.taskOf event), .ok result⟩ ∈ h' ∧
        result.validate = .ok ()) h := by
  unfold ConcurrentHandlers.execute
  cases validateTask (DispatchEventHandler.taskOf event) with
  | error e => exact .ret trivial (by simp)
  | ok _ =>
      refine .bind ((Prog.Always.trivial _).mono ?_)
      rintro (e | _) h₁ - -
      · exact .ret trivial (by simp)
      refine .op trivial ?_
      rintro (message | result)
      · exact .ret trivial (by simp)
      refine .bind (((Prog.Always.mem _ (List.mem_concat_self)).weaken fun _ _ => trivial).mono ?_)
      rintro (e | _) h₂ - hmem
      · exact .ret trivial (by simp)
      dsimp only
      cases hvalid : result.validate with
      | error e => exact .ret trivial (by simp)
      | ok _ =>
          refine .ret trivial ?_
          rintro r heq
          obtain rfl := Except.ok.inj heq
          exact ⟨hmem, hvalid⟩

theorem returns_publish (result : ExecutionResult) :
    (ConcurrentHandlers.publish handler event result).Always (fun _ => True)
      (fun a h' => a = .ok () → handler.resultProducer.isSome →
        result.status ≠ executionDuplicateSkipped →
          ⟨.publishResult (handler.resultEvent event result), .ok ()⟩ ∈ h') h := by
  unfold ConcurrentHandlers.publish
  cases handler.resultProducer with
  | none => exact .ret trivial (by simp)
  | some _ =>
      by_cases hskipped : result.status = executionDuplicateSkipped
      · simp only [hskipped, if_true]
        exact .ret trivial (by simp)
      simp only [hskipped, if_false]
      refine .bind ((Prog.Always.trivial _).mono ?_)
      rintro (e | _) h₁ - -
      · exact .ret trivial (by simp)
      refine .op trivial ?_
      rintro (e | _)
      · exact .ret trivial (by simp)
      refine ((Prog.Always.mem _ (List.mem_concat_self)).weaken fun _ _ => trivial).mono ?_
      intro _ h₂ _ hmem _ _ _
      exact hmem

theorem returns_program (event : DispatchEvent) (h : List (Prog.Event WorkerOp.Ans)) :
    (ConcurrentHandlers.program handler event).Always (fun _ => True)
      (Returned handler event) h := by
  unfold ConcurrentHandlers.program
  cases handler.executor with
  | none => exact .ret trivial (.failed _ _)
  | some _ =>
      refine .bind ((Prog.Always.trivial _).mono ?_)
      rintro (e | _) h₁ - -
      · exact .ret trivial (.failed _ _)
      refine .bind (returns_claim.mono ?_)
      rintro (e | _ | _) h₂ - hclaimed
      · exact .ret trivial (.failed _ _)
      · obtain ⟨e, he, hrefused⟩ := hclaimed rfl
        exact .ret trivial (.duplicate he hrefused)
      refine .bind (returns_execute.mono ?_)
      rintro (e | result) h₃ - hexecuted
      · exact .ret trivial (.failed _ _)
      obtain ⟨hmem, hvalid⟩ := hexecuted result rfl
      refine .bind ((((returns_publish result).and (Prog.Always.mem _ hmem)).weaken
        fun _ _ => trivial).mono ?_)
      rintro (e | _) h₄ - ⟨hpublished, hmem₄⟩
      · exact .ret trivial (.failed _ _)
      · exact .ret trivial (.executed hmem₄ hvalid (hpublished rfl))

end

/-! ## The calls together -/

abbrev Calls := Pool Shared Call WorkerOp.Ans Reply

section

variable {ω : Type} (quote : String → String) (duration : ℤ → String) (server : Server ω)
  (consumer : DispatchEventHandler ω)

/-- The calls of both that have come, in any interleaving. -/
def Reachable : Calls → Prop :=
  Pool.Reachable (program quote duration server consumer) (fun _ _ => True) Responds {}

/-- The generation that a call handles. -/
def generationOf (c : Call) : Option (String × ℤ) :=
  match handling server consumer c with
  | .error _ => none
  | .ok (_, event) => some (generation event)

/-- Of a generation, the events of the calls that handle it. -/
def ofGeneration (g : String × ℤ) (p : Event → Bool) (c : Call) (e : Event) : Bool :=
  generationOf server consumer c = some g && p e

/-- The caller is told that the job has succeeded. -/
def Reply.succeeded : Reply → Bool
  | .response r => r.status = statusSuccess
  | .handled (result, none) => result.status = executionSucceeded
  | _ => false

def succeeded (g : String × ℤ) (t : Thread Call WorkerOp.Ans Reply) : Bool :=
  generationOf server consumer t.call = some g &&
    match t.rest with
    | .ret r => r.succeeded
    | .op _ _ => false

/-- What the service and the consumer owe each other to the claims they share. -/
structure ClaimsShared (s : Calls) : Prop where
  executes_once : ∀ g, s.count (ofGeneration server consumer g executes) ≤ 1
  /-- A request that is not accepted does nothing. -/
  refused_idle : ∀ t ∈ s.threads, ∀ e, handling server consumer t.call = .error e →
    t.history = [] ∧ t.rest = .ret (.refused e)
  success_once : ∀ g, s.threads.countP (succeeded server consumer g) ≤ 1
  /-- Success is the answer of the call's own execution, and it has been published. -/
  success_executed : ∀ t ∈ s.threads, ∀ r, t.rest = .ret r → r.succeeded = true →
    ∃ handler event result, handling server consumer t.call = .ok (handler, event) ∧
      ⟨.execute (DispatchEventHandler.taskOf event), .ok result⟩ ∈ t.history ∧
      result.status = executionSucceeded ∧
      (handler.resultProducer.isSome →
        ⟨.publishResult (handler.resultEvent event result), .ok ()⟩ ∈ t.history)
  /-- A duplicate is what the store has refused, or what the executor calls one. -/
  skipped : ∀ t ∈ s.threads, ∀ r, t.rest = .ret (.response r) →
    r.status = statusDuplicateSkipped → (∃ e ∈ t.history, ConcurrentHandlers.refused e = true) ∨
      ∃ task result, ⟨.execute task, .ok result⟩ ∈ t.history ∧
        result.status = executionDuplicateSkipped
  /-- While the call that has won the claim has not executed, no call has: if it has returned,
  none ever does. -/
  abandoned : ∀ g, ∀ t ∈ s.threads, generationOf server consumer t.call = some g →
    (∃ e ∈ t.history, won (generationKey g) e = true) → (∀ e ∈ t.history, ¬ executes e) →
    s.count (ofGeneration server consumer g executes) = 0
  /-- Where the generation has been executed, a further call is told that it is a duplicate,
  whatever the first was told. -/
  answered_after : ∀ c handler event result,
    handling server consumer c = .ok (handler, event) → handler.executor.isSome →
    handler.idempotencyStore.isSome →
    0 < s.count (ofGeneration server consumer (generation event) executes) →
    ((program quote duration server consumer c).run (ConcurrentHandlers.smooth result)
      s.shared).2 = reply quote duration c (.duplicateSkipped, none)

variable {quote duration server consumer} {s : Calls} {handler : DispatchEventHandler ω}
  {event : DispatchEvent}

theorem generationOf_eq_some_iff {c : Call} {g : String × ℤ} :
    generationOf server consumer c = some g ↔
      ∃ handler event, handling server consumer c = .ok (handler, event) ∧
        generation event = g := by
  unfold generationOf
  cases handling server consumer c with
  | error e => simp
  | ok accepted =>
      obtain ⟨handler, event⟩ := accepted
      simp

theorem always_program {c : Call} (hhandling : handling server consumer c = .ok (handler, event))
    (hstore : handler.idempotencyStore.isSome) :
    (program quote duration server consumer c).Always (Sound handler event)
      (fun r h => ∃ answer, r = reply quote duration c answer ∧
        Returned handler event answer h) [] := by
  unfold program
  rw [hhandling]
  have hboth := ((ConcurrentHandlers.always_program hstore).and
    (returns_program event [])).weaken fun _ h => h.1
  refine .bind (hboth.mono ?_)
  intro answer h hsound hreturned
  exact .ret hsound ⟨answer, rfl, hreturned.2⟩

variable (hserver : ∀ handler ∈ server.handler, handler.idempotencyStore.isSome)
  (hconsumer : consumer.idempotencyStore.isSome)

include hserver hconsumer in
/-- Whoever handles a call has a store. -/
theorem store_of_handling {c : Call}
    (hhandling : handling server consumer c = .ok (handler, event)) :
    handler.idempotencyStore.isSome := by
  cases c with
  | rpc req => exact hserver handler (Server.accept_eq_ok_iff.mp hhandling).1
  | dispatch event' =>
      cases hhandling
      exact hconsumer

theorem Reachable.thread (h : Reachable quote duration server consumer s)
    {t : Thread Call WorkerOp.Ans Reply} (ht : t ∈ s.threads)
    (hhandling : handling server consumer t.call = .ok (handler, event))
    (hstore : handler.idempotencyStore.isSome) :
    Sound handler event t.history ∧ ∀ r, t.rest = .ret r →
      ∃ answer, r = reply quote duration t.call answer ∧
        Returned handler event answer t.history := by
  have hnow := (always_program hhandling hstore).leads (Pool.Reachable.leads h t ht)
  refine ⟨hnow.now, ?_⟩
  intro r hr
  rw [hr] at hnow
  cases hnow with
  | ret _ hfinal => exact hfinal

theorem Reachable.refused_thread (h : Reachable quote duration server consumer s)
    {t : Thread Call WorkerOp.Ans Reply} (ht : t ∈ s.threads) {e : RpcError}
    (hhandling : handling server consumer t.call = .error e) :
    t.history = [] ∧ t.rest = .ret (.refused e) := by
  have hleads := Pool.Reachable.leads h t ht
  unfold program at hleads
  rw [hhandling] at hleads
  exact hleads.of_ret

theorem Reachable.won_le (h : Reachable quote duration server consumer s) (key : String) :
    s.count (fun _ => won key) ≤ 1 :=
  (Pool.Reachable.count_le_one h (fun s => key ∈ s.claimed) (fun _ _ _ _ hr => hr.won)
    fun _ _ _ hr => hr.claimed_mono).1

theorem countP_ofGeneration (p : Event → Bool) (g : String × ℤ) (c : Call) (h : List Event) :
    h.countP (ofGeneration server consumer g p c) =
      if generationOf server consumer c = some g then h.countP p else 0 := by
  unfold ofGeneration
  split
  · rename_i heq
    simp [heq]
  · rename_i hne
    simp [hne]

include hserver hconsumer in
/-- In every thread, an execution follows a claim that was won. -/
theorem Reachable.executes_le_won (h : Reachable quote duration server consumer s)
    (g : String × ℤ) : ∀ t ∈ s.threads,
      t.history.countP (ofGeneration server consumer g executes t.call) ≤
        t.history.countP (won (generationKey g)) := by
  intro t ht
  rw [countP_ofGeneration]
  split
  · rename_i hg
    obtain ⟨handler, event, hhandling, rfl⟩ := generationOf_eq_some_iff.mp hg
    exact (h.thread ht hhandling (store_of_handling hserver hconsumer hhandling)).1.executes_le
  · exact Nat.zero_le _

include hserver hconsumer in
theorem Reachable.executes_le (h : Reachable quote duration server consumer s)
    (g : String × ℤ) : s.count (ofGeneration server consumer g executes) ≤ 1 :=
  le_trans (Pool.count_le (h.executes_le_won hserver hconsumer g)) (h.won_le _)

theorem mapExecutionResult_eq_success_iff {result : ExecutionResult} :
    (mapExecutionResult quote result).status = statusSuccess ↔
      result.status = executionSucceeded := by
  unfold mapExecutionResult
  split
  · simp [*]
  · split
    · simp [*, statusSuccess, statusDuplicateSkipped, executionSucceeded,
        executionDuplicateSkipped]
    · split <;> simp [*, statusSuccess, statusFailed]

theorem mapExecutionResult_eq_duplicate_iff {result : ExecutionResult} :
    (mapExecutionResult quote result).status = statusDuplicateSkipped ↔
      result.status = executionDuplicateSkipped := by
  unfold mapExecutionResult
  split
  · simp [*, statusSuccess, statusDuplicateSkipped, executionSucceeded,
      executionDuplicateSkipped]
  · split
    · simp [*]
    · split <;> simp [*, statusDuplicateSkipped, statusFailed]

/-- Success, as the caller is told it. -/
theorem succeeded_reply_iff {c : Call} {answer : ExecutionResult × Option HandleError} :
    (reply quote duration c answer).succeeded = true ↔
      answer.2 = none ∧ answer.1.status = executionSucceeded := by
  obtain ⟨result, e | e⟩ := answer
  · cases c with
    | rpc req => simp [reply, response, Reply.succeeded, mapExecutionResult_eq_success_iff]
    | dispatch event => simp [reply, Reply.succeeded]
  · cases c <;> simp [reply, response, Reply.succeeded, statusFailed, statusSuccess]

/-- It is the answer of an execution that succeeded. -/
theorem Returned.executed_of_succeeded {answer : ExecutionResult × Option HandleError}
    {h : List Event} (hreturned : Returned handler event answer h) (hnone : answer.2 = none)
    (hstatus : answer.1.status = executionSucceeded) :
    ⟨.execute (DispatchEventHandler.taskOf event), .ok answer.1⟩ ∈ h ∧
      (handler.resultProducer.isSome →
        ⟨.publishResult (handler.resultEvent event answer.1), .ok ()⟩ ∈ h) := by
  cases hreturned with
  | duplicate he hrefused => exact absurd hstatus (by decide)
  | failed result e => cases hnone
  | executed hexecuted hvalid hpublished =>
      refine ⟨hexecuted, fun hproducer => hpublished hproducer ?_⟩
      rw [hstatus]
      decide

/-- A response that tells of a duplicate. -/
theorem Returned.skipped {answer : ExecutionResult × Option HandleError} {h : List Event}
    (hreturned : Returned handler event answer h)
    (hskipped : (response quote duration answer).status = statusDuplicateSkipped) :
    (∃ e ∈ h, ConcurrentHandlers.refused e = true) ∨
      ∃ task result, ⟨.execute task, .ok result⟩ ∈ h ∧
        result.status = executionDuplicateSkipped := by
  cases hreturned with
  | duplicate he hrefused => exact Or.inl ⟨_, he, hrefused⟩
  | failed result e => simp [response, statusFailed, statusDuplicateSkipped] at hskipped
  | executed hexecuted hvalid hpublished =>
      exact Or.inr ⟨_, _, hexecuted, mapExecutionResult_eq_duplicate_iff.mp hskipped⟩

/-! ### A call in calm surroundings -/

open ConcurrentHandlers (smooth inject)

theorem run_inject_smooth (result : ExecutionResult) (shared : Shared) (point : Point) :
    (inject handler point).run (smooth result) shared = (shared, .ok ()) := by
  unfold inject
  cases handler.faultInjector <;> rfl

/-- On a claimed key. -/
theorem run_claimed {result : ExecutionResult} {shared : Shared} {key : String}
    (hexecutor : handler.executor.isSome) (hstore : handler.idempotencyStore.isSome)
    (hkey : executionIdempotencyKey event.jobId event.attempt = .ok key)
    (hclaimed : key ∈ shared.claimed) :
    ((ConcurrentHandlers.program handler event).run (smooth result) shared).2 =
      (.duplicateSkipped, none) := by
  obtain ⟨executor, hexecutor⟩ := Option.isSome_iff_exists.mp hexecutor
  obtain ⟨store, hstore⟩ := Option.isSome_iff_exists.mp hstore
  have httl : 0 < handler.ttl := by
    unfold DispatchEventHandler.ttl
    split
    · decide
    · exact not_le.mp ‹_›
  have hanswer := inMemoryTryClaim_of_key hkey httl shared.claimed
  rw [if_pos hclaimed] at hanswer
  unfold ConcurrentHandlers.program ConcurrentHandlers.claim
  simp only [hexecutor, hstore, hkey, Prog.run_bind, run_inject_smooth, Prog.run_op, smooth,
    hanswer, Prog.run_ret]

/-- Whoever handles the same generation derives the same key. -/
theorem key_of_executed {h : List Event} (hsound : Sound handler event h) {e : Event}
    (he : e ∈ h) (hexecutes : executes e = true) :
    executionIdempotencyKey event.jobId event.attempt = .ok (generationKey (generation event)) := by
  have hmem : e ∈ ConcurrentHandlers.visible h := by
    refine ConcurrentHandlers.mem_visible he ?_
    rintro point a rfl
    cases hexecutes
  unfold Sound at hsound
  generalize ConcurrentHandlers.visible h = v at hsound hmem
  cases hsound with
  | nothing => cases hmem
  | asked hkey answer | countedError hkey _ | countedDuplicate hkey | executed hkey answer
  | published hkey _ _ answer =>
      rw [hkey, ConcurrentHandlers.eq_generationKey hkey]

/-! ### All of it -/

/-- **The service and a consumer over the same claims**, in any interleaving and whatever
their surroundings answer. -/
theorem claims_shared (quote : String → String) (duration : ℤ → String)
    (hserver : ∀ handler ∈ server.handler, handler.idempotencyStore.isSome)
    (hconsumer : consumer.idempotencyStore.isSome)
    (h : Reachable quote duration server consumer s) :
    ClaimsShared quote duration server consumer s where
  executes_once := h.executes_le hserver hconsumer
  refused_idle := fun _ ht _ hhandling => h.refused_thread ht hhandling
  success_once := by
    intro g
    refine le_trans (Pool.countP_le_count ?_) (h.executes_le hserver hconsumer g)
    intro t ht hsucceeded
    obtain ⟨hg, hsucceeded⟩ := Bool.and_eq_true_iff.mp hsucceeded
    obtain ⟨handler, event, hhandling, hevent⟩ :=
      generationOf_eq_some_iff.mp (of_decide_eq_true hg)
    obtain ⟨-, hfinal⟩ := h.thread ht hhandling (store_of_handling hserver hconsumer hhandling)
    cases hrest : t.rest with
    | op o next =>
        rw [hrest] at hsucceeded
        cases hsucceeded
    | ret r =>
        rw [hrest] at hsucceeded
        obtain ⟨answer, rfl, hreturned⟩ := hfinal r hrest
        obtain ⟨hnone, hstatus⟩ := succeeded_reply_iff.mp hsucceeded
        obtain ⟨hexecuted, -⟩ := hreturned.executed_of_succeeded hnone hstatus
        exact ⟨_, hexecuted, Bool.and_eq_true_iff.mpr ⟨hg, rfl⟩⟩
  success_executed := by
    intro t ht r hrest hsucceeded
    cases hhandling : handling server consumer t.call with
    | error e =>
        obtain rfl := Prog.ret.inj (hrest.symm.trans (h.refused_thread ht hhandling).2)
        cases hsucceeded
    | ok accepted =>
        obtain ⟨handler, event⟩ := accepted
        obtain ⟨-, hfinal⟩ := h.thread ht hhandling (store_of_handling hserver hconsumer hhandling)
        obtain ⟨answer, rfl, hreturned⟩ := hfinal r hrest
        obtain ⟨hnone, hstatus⟩ := succeeded_reply_iff.mp hsucceeded
        obtain ⟨hexecuted, hpublished⟩ := hreturned.executed_of_succeeded hnone hstatus
        exact ⟨handler, event, answer.1, rfl, hexecuted, hstatus, hpublished⟩
  skipped := by
    intro t ht r hrest hskipped
    cases hhandling : handling server consumer t.call with
    | error e =>
        cases hrest.symm.trans (h.refused_thread ht hhandling).2
    | ok accepted =>
        obtain ⟨handler, event⟩ := accepted
        obtain ⟨-, hfinal⟩ := h.thread ht hhandling (store_of_handling hserver hconsumer hhandling)
        obtain ⟨answer, hreply, hreturned⟩ := hfinal _ hrest
        cases hcall : t.call with
        | dispatch event' =>
            rw [hcall] at hreply
            cases hreply
        | rpc req =>
            rw [hcall] at hreply
            obtain rfl := Reply.response.inj hreply
            exact hreturned.skipped hskipped
  abandoned := by
    intro g t ht hg ⟨e, he, hwon⟩ hnot
    have hlt : s.count (ofGeneration server consumer g executes) <
        s.count (fun _ => won (generationKey g)) := by
      refine Pool.count_lt (h.executes_le_won hserver hconsumer g) ⟨t, ht, ?_⟩
      have hzero : t.history.countP executes = 0 := List.countP_eq_zero.mpr hnot
      rw [countP_ofGeneration, if_pos hg, hzero]
      exact List.countP_pos_iff.mpr ⟨e, he, hwon⟩
    have hone := h.won_le (generationKey g)
    omega
  answered_after := by
    intro c handler event result hhandling hexecutor hstore hpos
    obtain ⟨t, ht, e, he, hexecutes⟩ := Pool.count_pos_iff.mp hpos
    obtain ⟨hg, hexecutes⟩ := Bool.and_eq_true_iff.mp hexecutes
    obtain ⟨handler', event', hhandling', hevent⟩ :=
      generationOf_eq_some_iff.mp (of_decide_eq_true hg)
    obtain ⟨hsound, -⟩ := h.thread ht hhandling' (store_of_handling hserver hconsumer hhandling')
    -- the call that has executed has won the claim, and the claim stays
    have hwon : 0 < s.count (fun _ => won (generationKey (generation event))) :=
      Nat.lt_of_lt_of_le hpos (Pool.count_le (h.executes_le_won hserver hconsumer _))
    have hclaimed : generationKey (generation event) ∈ s.shared.claimed :=
      Pool.Reachable.after h (Q := fun shared => _ ∈ shared.claimed)
        (fun _ _ _ _ hr hw => (hr.won hw).2) (fun _ _ _ hr => hr.claimed_mono) hwon
    have hkey := key_of_executed hsound he hexecutes
    rw [hevent, executionIdempotencyKey_eq_ok_iff] at hkey
    obtain ⟨hblank, hattempt, -⟩ := hkey
    obtain ⟨hjob, hattempts⟩ := Prod.mk.inj hevent
    rw [hjob] at hblank
    rw [hattempts] at hattempt
    have hkey : executionIdempotencyKey event.jobId event.attempt =
        .ok (generationKey (generation event)) :=
      executionIdempotencyKey_eq_ok_iff.mpr ⟨hblank, hattempt, rfl⟩
    unfold program
    rw [hhandling]
    simp only [Prog.run_bind, Prog.run_ret, run_claimed hexecutor hstore hkey hclaimed]

end

/-- The job has come from the topic; asked for again, it is a duplicate. -/
theorem claims_shared_redelivered : ∃ s : Calls,
    s.threads.map Thread.call =
      [.dispatch ConcurrentHandlers.deliveredEvent, .rpc (some { jobId := " job " })] ∧
    s.threads.map Thread.returned =
      [some (.handled (⟨executionSucceeded, ""⟩, none)),
        some (.response ⟨statusDuplicateSkipped, true, "duplicate execution skipped"⟩)] ∧
    ClaimsShared id (fun _ => "") ⟨some ConcurrentHandlers.storeHandler⟩
      ConcurrentHandlers.storeHandler s := by
  have hanswer := ConcurrentHandlers.responds_smooth { status := executionSucceeded }
  have hstart : Reachable id (fun _ => "") ⟨some ConcurrentHandlers.storeHandler⟩
      ConcurrentHandlers.storeHandler ⟨{}, []⟩ := .start
  have hfirst := Pool.Reachable.alone hanswer hstart
    (c := .dispatch ConcurrentHandlers.deliveredEvent) trivial
  have hsecond := hfirst.alone hanswer (c := .rpc (some { jobId := " job " })) trivial
  refine ⟨_, rfl, ?_, claims_shared id (fun _ => "") ?_ rfl hsecond⟩
  · decide +kernel
  · rintro handler hhandler
    cases hhandler
    rfl

end Grpc

end KernelQ.Worker
