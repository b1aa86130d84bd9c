import KernelQ.Foundation.Threads
import KernelQ.Worker.Handler

/-!
# Calls of the handler that share a claim store

`handle` as a program of atomic operations: a fault point, `TryClaim`, `Execute`,
`PublishResult`, and the `Add` of each counter. Alone, the program is `handle`
(`run_program`). Here any number of calls run at once over one in-memory store, in any
interleaving, and whatever else they ask may be answered in any way. A caller that
handles its events one after the other is the case where its next call comes when its
last has returned.
-/

namespace KernelQ.Worker

open KernelQ.Foundation

namespace ConcurrentHandlers

inductive WorkerOp
  | inject (point : Point)
  | tryClaim (key : String) (ttl : ℤ)
  | countError
  | countDuplicate
  | execute (task : Task)
  | publishResult (event : WorkerResultEvent)

@[reducible] def WorkerOp.Ans : WorkerOp → Type
  | inject _ => Option String
  | tryClaim _ _ => Except ClaimError Bool
  | countError => Unit
  | countDuplicate => Unit
  | execute _ => Except String ExecutionResult
  | publishResult _ => Except PublishError Unit

abbrev Program := Prog WorkerOp.Ans

abbrev Event := Prog.Event WorkerOp.Ans

section

variable {ω : Type} (handler : DispatchEventHandler ω) (event : DispatchEvent)

/-! ## The program -/

def inject (point : Point) : Program (Except HandleError Unit) :=
  match handler.faultInjector with
  | none => .ret (.ok ())
  | some _ =>
      .op (.inject point) fun
        | none => .ret (.ok ())
        | some message => .ret (.error (.injected message))

/-- Step 2: `false` is a duplicate. -/
def claim : Program (Except HandleError Bool) :=
  match handler.idempotencyStore with
  | none => .ret (.ok true)
  | some _ =>
      match executionIdempotencyKey event.jobId event.attempt with
      | .error e => .ret (.error (.key e))
      | .ok key =>
          .op (.tryClaim key handler.ttl) fun
            | .error e => .op .countError fun _ => .ret (.error (.claim e))
            | .ok false => .op .countDuplicate fun _ => .ret (.ok false)
            | .ok true =>
                (inject handler .afterClaim).bind fun
                  | .error e => .ret (.error e)
                  | .ok () => .ret (.ok true)

/-- Steps 3 to 6. -/
def execute : Program (Except HandleError ExecutionResult) :=
  match validateTask (DispatchEventHandler.taskOf event) with
  | .error e => .ret (.error (.task e))
  | .ok () =>
      (inject handler .beforeExecute).bind fun
        | .error e => .ret (.error e)
        | .ok () =>
            .op (.execute (DispatchEventHandler.taskOf event)) fun
              | .error message => .ret (.error (.execute message))
              | .ok result =>
                  (inject handler .afterExecute).bind fun
                    | .error e => .ret (.error e)
                    | .ok () =>
                        match result.validate with
                        | .error e => .ret (.error (.result e))
                        | .ok () => .ret (.ok result)

/-- Step 7. -/
def publish (result : ExecutionResult) : Program (Except HandleError Unit) :=
  match handler.resultProducer with
  | none => .ret (.ok ())
  | some _ =>
      if result.status = executionDuplicateSkipped then .ret (.ok ())
      else
        (inject handler .beforeResultPublish).bind fun
          | .error e => .ret (.error e)
          | .ok () =>
              .op (.publishResult (handler.resultEvent event result)) fun
                | .error e => .ret (.error (.publish e))
                | .ok () => inject handler .afterResultPublish

/-- One call. -/
def program : Program (ExecutionResult × Option HandleError) :=
  match handler.executor with
  | none => .ret ({}, some .executorMissing)
  | some _ =>
      (inject handler .beforeClaim).bind fun
        | .error e => .ret ({}, some e)
        | .ok () =>
            (claim handler event).bind fun
              | .error e => .ret ({}, some e)
              | .ok false => .ret (.duplicateSkipped, none)
              | .ok true =>
                  (execute handler event).bind fun
                    | .error e => .ret ({}, some e)
                    | .ok result =>
                        (publish handler event result).bind fun
                          | .error e => .ret (result, some e)
                          | .ok () => .ret (result, none)

/-! ## Alone -/

/-- The handler's own surroundings answer. -/
def answer (s : Surroundings ω) : (o : WorkerOp) → Surroundings ω × o.Ans
  | .inject point =>
      match handler.faultInjector with
      | none => (s, none)
      | some injector => ({ s with world := (injector s.world point).1 }, (injector s.world point).2)
  | .tryClaim key ttl =>
      match handler.idempotencyStore with
      | none => (s, .ok true)
      | some tryClaim =>
          ({ s with world := (tryClaim s.world key ttl).1 }, (tryClaim s.world key ttl).2)
  | .countError => ({ s with idempotencyErrors := s.idempotencyErrors + 1 }, ())
  | .countDuplicate => ({ s with duplicateExecutions := s.duplicateExecutions + 1 }, ())
  | .execute task =>
      match handler.executor with
      | none => (s, .error "")
      | some executor =>
          ({ s with world := (executor s.world task).1 }, (executor s.world task).2)
  | .publishResult result =>
      match handler.resultProducer with
      | none => (s, .ok ())
      | some publishResult =>
          ({ s with world := (publishResult s.world result).1 }, (publishResult s.world result).2)

theorem run_inject (s : Surroundings ω) (point : Point) :
    (inject handler point).run (answer handler) s = handler.inject s point := by
  unfold inject DispatchEventHandler.inject
  cases hinjector : handler.faultInjector with
  | none => rfl
  | some injector =>
      simp only [Prog.run_op, answer, hinjector]
      rcases injector s.world point with ⟨world, _ | message⟩ <;> rfl

theorem run_claim (s : Surroundings ω) :
    (claim handler event).run (answer handler) s = handler.claim s event := by
  unfold claim DispatchEventHandler.claim
  cases hstore : handler.idempotencyStore with
  | none => rfl
  | some tryClaim =>
      cases hkey : executionIdempotencyKey event.jobId event.attempt with
      | error e => rfl
      | ok key =>
          simp only [Prog.run_op, answer, hstore]
          rcases tryClaim s.world key handler.ttl with ⟨world, e | _ | _⟩
          · rfl
          · rfl
          · simp only [Prog.run_bind, run_inject]
            rcases handler.inject { s with world } .afterClaim with ⟨s', e | _⟩ <;> rfl

theorem run_execute {executor : ω → Task → ω × Except String ExecutionResult}
    (hexecutor : handler.executor = some executor) (s : Surroundings ω) :
    (execute handler event).run (answer handler) s = handler.execute executor s event := by
  unfold execute DispatchEventHandler.execute
  cases validateTask (DispatchEventHandler.taskOf event) with
  | error e => rfl
  | ok _ =>
      simp only [Prog.run_bind, run_inject]
      rcases handler.inject s .beforeExecute with ⟨s₁, e | _⟩
      · rfl
      simp only [Prog.run_op, answer, hexecutor]
      rcases executor s₁.world (DispatchEventHandler.taskOf event) with ⟨world, message | result⟩
      · rfl
      simp only [Prog.run_bind, run_inject]
      rcases handler.inject { s₁ with world } .afterExecute with ⟨s₂, e | _⟩
      · rfl
      dsimp only
      cases result.validate <;> rfl

theorem run_publish (result : ExecutionResult) (s : Surroundings ω) :
    (publish handler event result).run (answer handler) s = handler.publish s event result := by
  unfold publish DispatchEventHandler.publish
  cases hproducer : handler.resultProducer with
  | none => rfl
  | some publishResult =>
      by_cases hskipped : result.status = executionDuplicateSkipped
      · simp only [hskipped, if_true, Prog.run_ret]
      simp only [hskipped, if_false, Prog.run_bind, run_inject]
      rcases handler.inject s .beforeResultPublish with ⟨s₁, e | _⟩
      · rfl
      simp only [Prog.run_op, answer, hproducer]
      rcases publishResult s₁.world (handler.resultEvent event result) with ⟨world, e | _⟩
      · rfl
      · exact run_inject handler { s₁ with world } .afterResultPublish

/-- **The program alone is `handle`.** -/
theorem run_program (s : Surroundings ω) :
    (program handler event).run (answer handler) s = handler.handle s event := by
  unfold program DispatchEventHandler.handle
  cases hexecutor : handler.executor with
  | none => rfl
  | some executor =>
      simp only [Prog.run_bind, run_inject]
      rcases handler.inject s .beforeClaim with ⟨s₁, e | _⟩
      · rfl
      simp only [Prog.run_bind, run_claim]
      rcases handler.claim s₁ event with ⟨s₂, e | _ | _⟩
      · rfl
      · rfl
      simp only [Prog.run_bind, run_execute handler event hexecutor]
      rcases handler.execute executor s₂ event with ⟨s₃, e | result⟩
      · rfl
      simp only [Prog.run_bind, run_publish]
      rcases handler.publish s₃ event result with ⟨s₄, e | _⟩ <;> rfl

end

/-! ## What a call can have done -/

/-- Everything but the fault points. -/
def visible (h : List Event) : List Event :=
  h.filter fun
    | ⟨.inject _, _⟩ => false
    | _ => true

@[simp] theorem visible_inject (h : List Event) (point : Point) (a : Option String) :
    visible (h ++ [⟨.inject point, a⟩]) = visible h := by
  simp [visible]

@[simp] theorem visible_tryClaim (h : List Event) (key : String) (ttl : ℤ)
    (a : Except ClaimError Bool) :
    visible (h ++ [⟨.tryClaim key ttl, a⟩]) = visible h ++ [⟨.tryClaim key ttl, a⟩] := by
  simp [visible]

@[simp] theorem visible_countError (h : List Event) (a : Unit) :
    visible (h ++ [⟨.countError, a⟩]) = visible h ++ [⟨.countError, a⟩] := by
  simp [visible]

@[simp] theorem visible_countDuplicate (h : List Event) (a : Unit) :
    visible (h ++ [⟨.countDuplicate, a⟩]) = visible h ++ [⟨.countDuplicate, a⟩] := by
  simp [visible]

@[simp] theorem visible_execute (h : List Event) (task : Task)
    (a : Except String ExecutionResult) :
    visible (h ++ [⟨.execute task, a⟩]) = visible h ++ [⟨.execute task, a⟩] := by
  simp [visible]

@[simp] theorem visible_publishResult (h : List Event) (result : WorkerResultEvent)
    (a : Except PublishError Unit) :
    visible (h ++ [⟨.publishResult result, a⟩]) = visible h ++ [⟨.publishResult result, a⟩] := by
  simp [visible]

/-- The store has answered. -/
def asks : Event → Bool
  | ⟨.tryClaim _ _, _⟩ => true
  | _ => false

/-- The store has answered that the key is claimed. -/
def refused : Event → Bool
  | ⟨.tryClaim _ _, .ok false⟩ => true
  | _ => false

/-- The store has failed. -/
def failed : Event → Bool
  | ⟨.tryClaim _ _, .error _⟩ => true
  | _ => false

/-- The call has claimed the key. -/
def won (key : String) : Event → Bool
  | ⟨.tryClaim k _, .ok true⟩ => k = key
  | _ => false

def executes : Event → Bool
  | ⟨.execute _, _⟩ => true
  | _ => false

/-- A result is handed to the producer. -/
def publishes : Event → Bool
  | ⟨.publishResult _, _⟩ => true
  | _ => false

def countsDuplicate : Event → Bool
  | ⟨.countDuplicate, _⟩ => true
  | _ => false

def countsError : Event → Bool
  | ⟨.countError, _⟩ => true
  | _ => false

theorem countP_visible {p : Event → Bool} (hp : ∀ point a, p ⟨.inject point, a⟩ = false)
    (h : List Event) : h.countP p = (visible h).countP p := by
  rw [visible, List.countP_filter]
  refine List.countP_congr ?_
  rintro ⟨o, a⟩ -
  cases o with
  | inject point => simp [hp]
  | _ => simp

section

variable {ω : Type} (handler : DispatchEventHandler ω) (event : DispatchEvent)

/-- What a call may have done, apart from its fault points. -/
inductive Did : List Event → Prop
  | nothing : Did []
  | asked {key : String} (hkey : executionIdempotencyKey event.jobId event.attempt = .ok key)
      (answer : Except ClaimError Bool) : Did [⟨.tryClaim key handler.ttl, answer⟩]
  | countedError {key : String}
      (hkey : executionIdempotencyKey event.jobId event.attempt = .ok key) (e : ClaimError) :
      Did [⟨.tryClaim key handler.ttl, .error e⟩, ⟨.countError, ()⟩]
  | countedDuplicate {key : String}
      (hkey : executionIdempotencyKey event.jobId event.attempt = .ok key) :
      Did [⟨.tryClaim key handler.ttl, .ok false⟩, ⟨.countDuplicate, ()⟩]
  | executed {key : String}
      (hkey : executionIdempotencyKey event.jobId event.attempt = .ok key)
      (answer : Except String ExecutionResult) :
      Did [⟨.tryClaim key handler.ttl, .ok true⟩,
        ⟨.execute (DispatchEventHandler.taskOf event), answer⟩]
  | published {key : String}
      (hkey : executionIdempotencyKey event.jobId event.attempt = .ok key)
      {result : ExecutionResult} (hvalid : result.validate = .ok ())
      (hskipped : result.status ≠ executionDuplicateSkipped)
      (answer : Except PublishError Unit) :
      Did [⟨.tryClaim key handler.ttl, .ok true⟩,
        ⟨.execute (DispatchEventHandler.taskOf event), .ok result⟩,
        ⟨.publishResult (handler.resultEvent event result), answer⟩]

/-- The history is possible. -/
def Sound (h : List Event) : Prop :=
  Did handler event (visible h)

/-- The call has counted what it has to count. -/
def Settled (h : List Event) : Prop :=
  (visible h).countP countsDuplicate = (visible h).countP refused ∧
    (visible h).countP countsError = (visible h).countP failed

/-- How step 2 ends. -/
def ClaimEnds : Except HandleError Bool → List Event → Prop
  | .ok true, h => ∃ key, executionIdempotencyKey event.jobId event.attempt = .ok key ∧
      visible h = [⟨.tryClaim key handler.ttl, .ok true⟩]
  | _, h => Settled h

/-- How steps 3 to 6 end, once the key is claimed. -/
def ExecuteEnds (key : String) : Except HandleError ExecutionResult → List Event → Prop
  | .ok result, h => result.validate = .ok () ∧
      visible h = [⟨.tryClaim key handler.ttl, .ok true⟩,
        ⟨.execute (DispatchEventHandler.taskOf event), .ok result⟩]
  | .error _, h => Settled h

variable {handler event} {h v : List Event}

theorem sound_of_visible (hv : visible h = v) (hdid : Did handler event v) :
    Sound handler event h := by
  unfold Sound
  rwa [hv]

theorem settled_of_visible (hv : visible h = v)
    (hcounts : v.countP countsDuplicate = v.countP refused ∧
      v.countP countsError = v.countP failed) : Settled h := by
  unfold Settled
  rwa [hv]

theorem always_inject (hv : visible h = v) (hdid : Did handler event v) (point : Point) :
    (inject handler point).Always (Sound handler event) (fun _ h' => visible h' = v) h := by
  have hsound := sound_of_visible hv hdid
  unfold inject
  cases handler.faultInjector with
  | none => exact .ret hsound hv
  | some _ =>
      refine .op hsound ?_
      intro a
      have hv' : visible (h ++ [⟨.inject point, a⟩]) = v := by rw [visible_inject, hv]
      rcases a with _ | message
      · exact .ret (sound_of_visible hv' hdid) hv'
      · exact .ret (sound_of_visible hv' hdid) hv'

theorem always_claim (hstore : handler.idempotencyStore.isSome) (hnothing : visible h = []) :
    (claim handler event).Always (Sound handler event)
      (ClaimEnds handler event) h := by
  obtain ⟨tryClaim, htryClaim⟩ := Option.isSome_iff_exists.mp hstore
  have hsound : Sound handler event h := sound_of_visible hnothing .nothing
  unfold claim
  rw [htryClaim]
  cases hkey : executionIdempotencyKey event.jobId event.attempt with
  | error e => exact .ret hsound (settled_of_visible hnothing ⟨rfl, rfl⟩)
  | ok key =>
      refine .op hsound ?_
      intro a
      have hasked : visible (h ++ [⟨.tryClaim key handler.ttl, a⟩]) =
          [⟨.tryClaim key handler.ttl, a⟩] := by
        rw [visible_tryClaim, hnothing, List.nil_append]
      have hsoundAsked := sound_of_visible hasked (.asked hkey a)
      -- the store fails, it answers that the key is taken, or the claim is won
      rcases a with e | _ | _
      · refine .op hsoundAsked ?_
        intro a
        have hcounted := (visible_countError _ a).trans (congrArg (· ++ _) hasked)
        exact .ret (sound_of_visible hcounted (.countedError hkey e))
          (settled_of_visible hcounted ⟨rfl, rfl⟩)
      · refine .op hsoundAsked ?_
        intro a
        have hcounted := (visible_countDuplicate _ a).trans (congrArg (· ++ _) hasked)
        exact .ret (sound_of_visible hcounted (.countedDuplicate hkey))
          (settled_of_visible hcounted ⟨rfl, rfl⟩)
      · refine .bind ((always_inject hasked (.asked hkey (.ok true)) .afterClaim).mono ?_)
        intro injected h' hsound' hsame
        rcases injected with e | _
        · exact .ret hsound' (settled_of_visible hsame ⟨rfl, rfl⟩)
        · exact .ret hsound' ⟨key, hkey, hsame⟩

theorem always_execute {key : String}
    (hkey : executionIdempotencyKey event.jobId event.attempt = .ok key)
    (hclaimed : visible h = [⟨.tryClaim key handler.ttl, .ok true⟩]) :
    (execute handler event).Always (Sound handler event)
      (ExecuteEnds handler event key) h := by
  have hdid : Did handler event [⟨.tryClaim key handler.ttl, .ok true⟩] := .asked hkey (.ok true)
  unfold execute
  cases validateTask (DispatchEventHandler.taskOf event) with
  | error e => exact .ret (sound_of_visible hclaimed hdid) (settled_of_visible hclaimed ⟨rfl, rfl⟩)
  | ok _ =>
      refine .bind ((always_inject hclaimed hdid .beforeExecute).mono ?_)
      intro injected h₁ hsound₁ h₁v
      rcases injected with e | _
      · exact .ret hsound₁ (settled_of_visible h₁v ⟨rfl, rfl⟩)
      refine .op hsound₁ ?_
      intro a
      have h₂v := (visible_execute h₁ (DispatchEventHandler.taskOf event) a).trans
        (congrArg (· ++ _) h₁v)
      have hdid₂ : Did handler event _ := .executed hkey a
      rcases a with message | result
      · exact .ret (sound_of_visible h₂v hdid₂) (settled_of_visible h₂v ⟨rfl, rfl⟩)
      refine .bind ((always_inject h₂v hdid₂ .afterExecute).mono ?_)
      intro injected h₃ hsound₃ h₃v
      rcases injected with e | _
      · exact .ret hsound₃ (settled_of_visible h₃v ⟨rfl, rfl⟩)
      dsimp only
      cases hvalid : result.validate with
      | error e => exact .ret hsound₃ (settled_of_visible h₃v ⟨rfl, rfl⟩)
      | ok _ => exact .ret hsound₃ ⟨hvalid, h₃v⟩

theorem always_publish {key : String} {result : ExecutionResult}
    (hkey : executionIdempotencyKey event.jobId event.attempt = .ok key)
    (hexecuted : ExecuteEnds handler event key (.ok result) h) :
    (publish handler event result).Always (Sound handler event) (fun _ h => Settled h) h := by
  obtain ⟨hvalid, hv⟩ := hexecuted
  have hdid : Did handler event _ := .executed hkey (.ok result)
  have hsound := sound_of_visible hv hdid
  have hsettled : Settled h := settled_of_visible hv ⟨rfl, rfl⟩
  unfold publish
  cases handler.resultProducer with
  | none => exact .ret hsound hsettled
  | some _ =>
      by_cases hskipped : result.status = executionDuplicateSkipped
      · simp only [hskipped, if_true]
        exact .ret hsound hsettled
      simp only [hskipped, if_false]
      refine .bind ((always_inject hv hdid .beforeResultPublish).mono ?_)
      intro injected h₁ hsound₁ h₁v
      rcases injected with e | _
      · exact .ret hsound₁ (settled_of_visible h₁v ⟨rfl, rfl⟩)
      refine .op hsound₁ ?_
      intro a
      have h₂v := (visible_publishResult h₁ (handler.resultEvent event result) a).trans
        (congrArg (· ++ _) h₁v)
      have hdid₂ : Did handler event _ := .published hkey hvalid hskipped a
      rcases a with e | _
      · exact .ret (sound_of_visible h₂v hdid₂) (settled_of_visible h₂v ⟨rfl, rfl⟩)
      refine (always_inject h₂v hdid₂ .afterResultPublish).mono ?_
      intro _ h₃ _ h₃v
      exact settled_of_visible h₃v ⟨rfl, rfl⟩

/-- **Every history of a call is possible**, and one that has returned has counted. -/
theorem always_program (hstore : handler.idempotencyStore.isSome) :
    (program handler event).Always (Sound handler event) (fun _ h => Settled h) [] := by
  have hnothing : visible [] = [] := rfl
  unfold program
  cases handler.executor with
  | none => exact .ret .nothing ⟨rfl, rfl⟩
  | some _ =>
      refine .bind ((always_inject hnothing .nothing .beforeClaim).mono ?_)
      intro injected h₁ hsound₁ h₁v
      rcases injected with e | _
      · exact .ret hsound₁ (settled_of_visible h₁v ⟨rfl, rfl⟩)
      refine .bind ((always_claim hstore h₁v).mono ?_)
      intro claimed h₂ hsound₂ hclaimed
      rcases claimed with e | _ | _
      · exact .ret hsound₂ hclaimed
      · exact .ret hsound₂ hclaimed
      obtain ⟨key, hkey, h₂v⟩ := hclaimed
      refine .bind ((always_execute hkey h₂v).mono ?_)
      intro executed h₃ hsound₃ hexecuted
      rcases executed with e | result
      · exact .ret hsound₃ hexecuted
      refine .bind ((always_publish hkey hexecuted).mono ?_)
      intro published h₄ hsound₄ hsettled
      rcases published with e | _
      · exact .ret hsound₄ hsettled
      · exact .ret hsound₄ hsettled

/-! ## What follows for a call -/

/-- The whitespace-trimmed job id and the attempt. -/
def generation (event : DispatchEvent) : String × ℤ :=
  (trimSpace event.jobId, event.attempt)

def generationKey (g : String × ℤ) : String :=
  "execution:" ++ g.1 ++ ":" ++ String.ofList (intText g.2)

theorem eq_generationKey {key : String}
    (hkey : executionIdempotencyKey event.jobId event.attempt = .ok key) :
    key = generationKey (generation event) :=
  (executionIdempotencyKey_eq_ok_iff.mp hkey).2.2

theorem Sound.asks_le (hsound : Sound handler event h) : h.countP asks ≤ 1 := by
  rw [countP_visible fun _ _ => rfl]
  unfold Sound at hsound
  generalize visible h = v at hsound ⊢
  cases hsound <;> simp [asks, List.countP_cons]

/-- An execution follows a claim that was won. -/
theorem Sound.executes_le (hsound : Sound handler event h) :
    h.countP executes ≤ h.countP (won (generationKey (generation event))) := by
  rw [countP_visible fun _ _ => rfl, countP_visible (p := won _) fun _ _ => rfl]
  unfold Sound at hsound
  generalize visible h = v at hsound ⊢
  cases hsound with
  | nothing => exact le_refl _
  | asked hkey answer => simp [executes, List.countP_cons]
  | countedError hkey e => simp [executes, List.countP_cons]
  | countedDuplicate hkey => simp [executes, List.countP_cons]
  | executed hkey answer => simp [executes, won, List.countP_cons, eq_generationKey hkey]
  | published hkey _ _ answer => simp [executes, won, List.countP_cons, eq_generationKey hkey]

theorem Sound.publishes_le (hsound : Sound handler event h) :
    h.countP publishes ≤ h.countP executes := by
  rw [countP_visible fun _ _ => rfl, countP_visible (p := executes) fun _ _ => rfl]
  unfold Sound at hsound
  generalize visible h = v at hsound ⊢
  cases hsound <;> simp [executes, publishes, List.countP_cons]

theorem Sound.counts_le (hsound : Sound handler event h) :
    h.countP countsDuplicate ≤ h.countP refused ∧ h.countP countsError ≤ h.countP failed := by
  rw [countP_visible (p := countsDuplicate) fun _ _ => rfl,
    countP_visible (p := refused) fun _ _ => rfl,
    countP_visible (p := countsError) fun _ _ => rfl,
    countP_visible (p := failed) fun _ _ => rfl]
  unfold Sound at hsound
  generalize visible h = v at hsound ⊢
  cases hsound <;>
    simp [countsDuplicate, countsError, refused, failed, List.countP_cons]

theorem Settled.counts_eq (hsettled : Settled h) :
    h.countP countsDuplicate = h.countP refused ∧ h.countP countsError = h.countP failed := by
  rw [countP_visible (p := countsDuplicate) fun _ _ => rfl,
    countP_visible (p := refused) fun _ _ => rfl,
    countP_visible (p := countsError) fun _ _ => rfl,
    countP_visible (p := failed) fun _ _ => rfl]
  exact hsettled

theorem Sound.answers_le (hsound : Sound handler event h) :
    h.countP refused ≤ 1 ∧ h.countP failed ≤ 1 := by
  have hasks := hsound.asks_le
  constructor
  · refine le_trans (List.countP_mono_left ?_) hasks
    rintro ⟨o, a⟩ - h
    cases o with
    | tryClaim key ttl => rfl
    | _ => cases h
  · refine le_trans (List.countP_mono_left ?_) hasks
    rintro ⟨o, a⟩ - h
    cases o with
    | tryClaim key ttl => rfl
    | _ => cases h

/-- What is in the history, apart from the fault points. -/
theorem mem_visible {e : Event} (he : e ∈ h) (hvisible : ∀ point a, e ≠ ⟨.inject point, a⟩) :
    e ∈ visible h := by
  refine List.mem_filter.mpr ⟨he, ?_⟩
  obtain ⟨o, a⟩ := e
  cases o with
  | inject point => exact absurd rfl (hvisible point a)
  | _ => rfl

/-- No execution in a call that was refused, or that the store has failed. -/
theorem Sound.not_executes (hsound : Sound handler event h) {e e' : Event} (he : e ∈ h)
    (he' : e' ∈ h) (hexecutes : executes e = true) : refused e' = false ∧ failed e' = false := by
  by_cases hinject : ∃ point a, e' = ⟨.inject point, a⟩
  · obtain ⟨point, a, rfl⟩ := hinject
    exact ⟨rfl, rfl⟩
  have hmem : e ∈ visible h := by
    refine mem_visible he ?_
    rintro point a rfl
    cases hexecutes
  have hmem' : e' ∈ visible h :=
    mem_visible he' fun point a heq => hinject ⟨point, a, heq⟩
  -- a call that has executed has won its claim, and asks for nothing else
  unfold Sound at hsound
  generalize visible h = v at hsound hmem hmem'
  cases hsound with
  | nothing => cases hmem
  | asked hkey answer =>
      rw [List.mem_singleton.mp hmem] at hexecutes
      cases hexecutes
  | countedError hkey _ =>
      simp only [List.mem_cons, List.not_mem_nil, or_false] at hmem
      rcases hmem with rfl | rfl <;> cases hexecutes
  | countedDuplicate hkey =>
      simp only [List.mem_cons, List.not_mem_nil, or_false] at hmem
      rcases hmem with rfl | rfl <;> cases hexecutes
  | executed hkey answer =>
      simp only [List.mem_cons, List.not_mem_nil, or_false] at hmem'
      rcases hmem' with rfl | rfl <;> exact ⟨rfl, rfl⟩
  | published hkey _ _ answer =>
      simp only [List.mem_cons, List.not_mem_nil, or_false] at hmem'
      rcases hmem' with rfl | rfl | rfl <;> exact ⟨rfl, rfl⟩

/-- What a call publishes is the valid result of its own execution. -/
theorem Sound.published (hsound : Sound handler event h) {sent : WorkerResultEvent}
    {a : Except PublishError Unit} (hmem : ⟨.publishResult sent, a⟩ ∈ h) :
    ∃ result, ⟨.execute (DispatchEventHandler.taskOf event), .ok result⟩ ∈ h ∧
      result.validate = .ok () ∧ result.status ≠ executionDuplicateSkipped ∧
      sent = handler.resultEvent event result := by
  have hvisible : ⟨.publishResult sent, a⟩ ∈ visible h := by
    refine mem_visible hmem ?_
    intro point b heq
    cases heq
  have hsub : visible h ⊆ h := List.filter_sublist.subset
  unfold Sound at hsound
  generalize visible h = v at hsound hvisible hsub
  cases hsound with
  | published hkey hvalid hskipped answer =>
      rename_i key result
      refine ⟨result, hsub (by simp), hvalid, hskipped, ?_⟩
      simp only [List.mem_cons, List.not_mem_nil, or_false] at hvisible
      rcases hvisible with heq | heq | heq
      · cases heq
      · cases heq
      · cases heq
        rfl
  | _ => simp at hvisible

/-! ## The calls together -/

structure Shared where
  claimed : List String := []
  duplicateExecutions : ℕ := 0
  idempotencyErrors : ℕ := 0

/-- What the surroundings may answer. The store may also fail, and it may have claimed
the key before it did. -/
inductive Responds : Shared → Event → Shared → Prop
  | inject (s : Shared) (point : Point) (a : Option String) : Responds s ⟨.inject point, a⟩ s
  | tryClaim (s : Shared) (key : String) (ttl : ℤ) (claimed : List String)
      (a : Except ClaimError Bool) (hanswer : inMemoryTryClaim s.claimed key ttl = (claimed, a)) :
      Responds s ⟨.tryClaim key ttl, a⟩ { s with claimed }
  | fails (s : Shared) (key : String) (ttl : ℤ) (e : ClaimError) (claimed : List String)
      (hclaimed : claimed = s.claimed ∨ claimed = key :: s.claimed) :
      Responds s ⟨.tryClaim key ttl, .error e⟩ { s with claimed }
  | countError (s : Shared) :
      Responds s ⟨.countError, ()⟩ { s with idempotencyErrors := s.idempotencyErrors + 1 }
  | countDuplicate (s : Shared) :
      Responds s ⟨.countDuplicate, ()⟩ { s with duplicateExecutions := s.duplicateExecutions + 1 }
  | execute (s : Shared) (task : Task) (a : Except String ExecutionResult) :
      Responds s ⟨.execute task, a⟩ s
  | publishResult (s : Shared) (result : WorkerResultEvent) (a : Except PublishError Unit) :
      Responds s ⟨.publishResult result, a⟩ s

abbrev Calls := Pool Shared DispatchEvent WorkerOp.Ans (ExecutionResult × Option HandleError)

/-- The calls that have come, in any interleaving: any event may be handled at any
time, and any number of times. -/
def Reachable (handler : DispatchEventHandler ω) : Calls → Prop :=
  Pool.Reachable (program handler) (fun _ _ => True) Responds {}

/-- Of a generation, the events of the calls that handle it. -/
def ofGeneration (g : String × ℤ) (p : Event → Bool) (event : DispatchEvent) (e : Event) : Bool :=
  generation event = g && p e

/-- Execution at most once, and what goes with it. -/
structure AtMostOnce (handler : DispatchEventHandler ω) (s : Calls) : Prop where
  executes_once : ∀ g, s.count (ofGeneration g executes) ≤ 1
  /-- Never in a call whose `TryClaim` has failed or answered that it is a duplicate. -/
  executes_claimed : ∀ t ∈ s.threads, (∃ e ∈ t.history, refused e ∨ failed e) →
    ∀ e ∈ t.history, ¬ executes e
  publishes_once : ∀ g, s.count (ofGeneration g publishes) ≤ 1
  publishes_result : ∀ t ∈ s.threads, ∀ sent a, ⟨.publishResult sent, a⟩ ∈ t.history →
    ∃ result, ⟨.execute (DispatchEventHandler.taskOf t.call), .ok result⟩ ∈ t.history ∧
      result.validate = .ok () ∧ result.status ≠ executionDuplicateSkipped ∧
      sent = handler.resultEvent t.call result
  /-- A call counts right after its answer: at any moment, no more are counted. -/
  counted_le : s.shared.duplicateExecutions ≤ s.threads.countP (fun t => t.history.any refused) ∧
    s.shared.idempotencyErrors ≤ s.threads.countP (fun t => t.history.any failed)
  /-- When all calls have returned, all are counted. -/
  counted : (∀ t ∈ s.threads, ∃ a, t.rest = .ret a) →
    s.shared.duplicateExecutions = s.threads.countP (fun t => t.history.any refused) ∧
    s.shared.idempotencyErrors = s.threads.countP (fun t => t.history.any failed)

variable {s : Calls} {g : String × ℤ}

theorem Reachable.thread (h : Reachable handler s) (hstore : handler.idempotencyStore.isSome)
    {t : Thread DispatchEvent WorkerOp.Ans (ExecutionResult × Option HandleError)}
    (ht : t ∈ s.threads) :
    Sound handler t.call t.history ∧ ∀ a, t.rest = .ret a → Settled t.history :=
  h.always (fun _ => always_program hstore) ht

/-- What the in-memory store does, in one lemma: a claim that is won takes a free key,
and any other answer leaves the claims as they are. -/
theorem inMemoryTryClaim_cases {claimed claimed' : List String} {key : String} {ttl : ℤ}
    {a : Except ClaimError Bool} (h : inMemoryTryClaim claimed key ttl = (claimed', a)) :
    (a = .ok true ∧ key ∉ claimed ∧ claimed' = key :: claimed) ∨
      (a ≠ .ok true ∧ claimed' = claimed) := by
  unfold inMemoryTryClaim at h
  cases hvalid : validateClaimInputs key ttl with
  | error e =>
      rw [hvalid] at h
      cases h
      exact .inr ⟨by simp, rfl⟩
  | ok _ =>
      rw [hvalid] at h
      dsimp only at h
      by_cases hk : key ∈ claimed
      · rw [if_pos hk] at h
        cases h
        exact .inr ⟨by simp, rfl⟩
      · rw [if_neg hk] at h
        cases h
        exact .inl ⟨rfl, hk, rfl⟩

/-- Claims stay. -/
theorem Responds.claimed_mono {x y : Shared} {e : Event} (h : Responds x e y) {k : String}
    (hk : k ∈ x.claimed) : k ∈ y.claimed := by
  cases h with
  | tryClaim key ttl claimed a hanswer =>
      rcases inMemoryTryClaim_cases hanswer with ⟨-, -, rfl⟩ | ⟨-, rfl⟩
      · exact List.mem_cons_of_mem _ hk
      · exact hk
  | fails key ttl e claimed hclaimed =>
      rcases hclaimed with rfl | rfl
      · exact hk
      · exact List.mem_cons_of_mem _ hk
  | _ => exact hk

/-- A claim is won on a free key, and takes it. -/
theorem Responds.won {x y : Shared} {e : Event} (h : Responds x e y) {k : String}
    (hwon : won k e = true) : k ∉ x.claimed ∧ k ∈ y.claimed := by
  cases h with
  | tryClaim key ttl claimed a hanswer =>
      rcases a with e | _ | _
      · cases hwon
      · cases hwon
      obtain rfl := of_decide_eq_true hwon
      rcases inMemoryTryClaim_cases hanswer with ⟨-, hfree, rfl⟩ | ⟨hne, -⟩
      · exact ⟨hfree, List.mem_cons_self⟩
      · exact absurd rfl hne
  | _ => cases hwon

theorem Reachable.won_le (h : Reachable handler s) (key : String) :
    s.count (fun _ => won key) ≤ 1 :=
  (h.count_le_one (fun s => key ∈ s.claimed) (fun _ _ _ _ hr => hr.won)
    fun _ _ _ hr => hr.claimed_mono).1

theorem Reachable.counters (h : Reachable handler s) :
    s.shared.duplicateExecutions = s.count (fun _ => countsDuplicate) ∧
      s.shared.idempotencyErrors = s.count (fun _ => countsError) := by
  constructor
  · refine Pool.Reachable.counter_eq h Shared.duplicateExecutions rfl ?_
    intro x _ e y hr
    cases hr <;> rfl
  · refine Pool.Reachable.counter_eq h Shared.idempotencyErrors rfl ?_
    intro x _ e y hr
    cases hr <;> rfl

theorem countP_ofGeneration (p : Event → Bool) :
    h.countP (ofGeneration g p event) = if generation event = g then h.countP p else 0 := by
  unfold ofGeneration
  split
  · rename_i heq
    simp [heq]
  · rename_i hne
    simp [hne]

/-- **The calls that handle a generation execute it at most once**: they all claim
the same key. -/
theorem Reachable.executes_le (h : Reachable handler s)
    (hstore : handler.idempotencyStore.isSome) (g : String × ℤ) :
    s.count (ofGeneration g executes) ≤ 1 := by
  refine le_trans (Pool.count_le (q := fun _ => won (generationKey g)) ?_) (h.won_le _)
  intro t ht
  rw [countP_ofGeneration]
  split
  · rename_i heq
    rw [← heq]
    exact (h.thread hstore ht).1.executes_le
  · exact Nat.zero_le _

theorem Reachable.publishes_le (h : Reachable handler s)
    (hstore : handler.idempotencyStore.isSome) (g : String × ℤ) :
    s.count (ofGeneration g publishes) ≤ 1 := by
  refine le_trans (Pool.count_le ?_) (h.executes_le hstore g)
  intro t ht
  rw [countP_ofGeneration, countP_ofGeneration]
  split
  · exact (h.thread hstore ht).1.publishes_le
  · exact le_refl _

theorem Reachable.calls_eq (h : Reachable handler s) (hstore : handler.idempotencyStore.isSome) :
    (s.threads.countP fun t => t.history.any refused) = s.count (fun _ => refused) ∧
      (s.threads.countP fun t => t.history.any failed) = s.count (fun _ => failed) :=
  ⟨(Pool.count_eq_threads (p := fun _ => refused) fun _ ht =>
      (h.thread hstore ht).1.answers_le.1).symm,
    (Pool.count_eq_threads (p := fun _ => failed) fun _ ht =>
      (h.thread hstore ht).1.answers_le.2).symm⟩

/-- **Execution at most once**, for any calls of a handler with a store, in any
interleaving, and whatever its surroundings answer. -/
theorem executes_at_most_once (handler : DispatchEventHandler ω)
    (hstore : handler.idempotencyStore.isSome) (h : Reachable handler s) :
    AtMostOnce handler s where
  executes_once := h.executes_le hstore
  executes_claimed := by
    rintro t ht ⟨e', he', hanswer⟩ e he hexecutes
    obtain ⟨hrefused, hfailed⟩ := (h.thread hstore ht).1.not_executes he he' hexecutes
    rw [hrefused, hfailed] at hanswer
    simp at hanswer
  publishes_once := h.publishes_le hstore
  publishes_result := by
    intro t ht sent a hmem
    exact (h.thread hstore ht).1.published hmem
  counted_le := by
    rw [(h.calls_eq hstore).1, (h.calls_eq hstore).2, h.counters.1, h.counters.2]
    exact ⟨Pool.count_le fun t ht => (h.thread hstore ht).1.counts_le.1,
      Pool.count_le fun t ht => (h.thread hstore ht).1.counts_le.2⟩
  counted := by
    intro hreturned
    have hsettled : ∀ t ∈ s.threads, Settled t.history := by
      intro t ht
      obtain ⟨a, ha⟩ := hreturned t ht
      exact (h.thread hstore ht).2 a ha
    rw [(h.calls_eq hstore).1, (h.calls_eq hstore).2, h.counters.1, h.counters.2]
    exact ⟨Pool.count_congr fun t ht => (hsettled t ht).counts_eq.1,
      Pool.count_congr fun t ht => (hsettled t ht).counts_eq.2⟩

end

/-- The store answers, and nothing fails. -/
def smooth (result : ExecutionResult) (s : Shared) : (o : WorkerOp) → Shared × o.Ans
  | .inject _ => (s, none)
  | .tryClaim key ttl =>
      match inMemoryTryClaim s.claimed key ttl with
      | (claimed, a) => ({ s with claimed }, a)
  | .countError => ({ s with idempotencyErrors := s.idempotencyErrors + 1 }, ())
  | .countDuplicate => ({ s with duplicateExecutions := s.duplicateExecutions + 1 }, ())
  | .execute _ => (s, .ok result)
  | .publishResult _ => (s, .ok ())

theorem responds_smooth (result : ExecutionResult) (s : Shared) (o : WorkerOp) :
    Responds s ⟨o, (smooth result s o).2⟩ (smooth result s o).1 := by
  cases o with
  | inject point => exact .inject s point none
  | tryClaim key ttl =>
      simp only [smooth]
      cases hanswer : inMemoryTryClaim s.claimed key ttl with
      | mk claimed a => exact .tryClaim s key ttl claimed a hanswer
  | countError => exact .countError s
  | countDuplicate => exact .countDuplicate s
  | execute task => exact .execute s task (.ok result)
  | publishResult sent => exact .publishResult s sent (.ok ())

/-- A handler with a store and a producer. -/
def storeHandler : DispatchEventHandler Unit where
  executor := some fun s _ => (s, .ok { status := executionSucceeded })
  resultProducer := some fun s _ => (s, .ok ())
  idempotencyStore := some fun s _ _ => (s, .ok true)

def deliveredEvent : DispatchEvent where
  jobId := "job"
  tenantId := "tenant"

/-- Delivered twice, the event is executed and published once. -/
theorem executes_at_most_once_twice : ∃ s, Reachable storeHandler s ∧
    s.threads.length = 2 ∧ s.shared.duplicateExecutions = 1 ∧
    s.count (ofGeneration ("job", 0) executes) = 1 ∧
    s.count (ofGeneration ("job", 0) publishes) = 1 ∧ AtMostOnce storeHandler s := by
  have hanswer := responds_smooth { status := executionSucceeded }
  have hstart : Reachable storeHandler ⟨{}, []⟩ := .start
  have hfirst := Pool.Reachable.alone hanswer hstart (c := deliveredEvent) trivial
  have hsecond := hfirst.alone hanswer (c := deliveredEvent) trivial
  exact ⟨_, hsecond, rfl, by decide +kernel, by decide +kernel, by decide +kernel,
    executes_at_most_once storeHandler rfl hsecond⟩

end ConcurrentHandlers

end KernelQ.Worker
