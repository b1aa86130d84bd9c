import KernelQ.Worker.DeadLetters

/-!
# One message, processed at once or by the pool

`ProcessKafkaMessage` parses a message and handles it on the spot. `Run` splits the same
work: the poll goroutine parses the message and sends it to the pool, and a worker handles
what it receives and rebuilds the message where the handler fails. Both have one outcome
(`outcome`), whatever else the surroundings answer.
-/

namespace KernelQ.Worker

open KernelQ.Foundation

/-! ## At once -/

/-- `Message`. -/
structure Message where
  key : ByteArray
  value : ByteArray
  headers : List (String × ByteArray)
  topic : String
  partition : ℤ
  offset : ℤ

def KafkaMessage.message (msg : KafkaMessage) : Message where
  key := msg.key
  value := msg.value
  headers := msg.headers
  topic := sourceTopicFromMessage msg
  partition := msg.partition
  offset := if 0 ≤ msg.offset then msg.offset else 0

/-- `Handle`, in the context of the headers of a message. -/
inductive RunnerOp
  | handle (message : Message) (event : DispatchEvent)

@[reducible] def RunnerOp.Ans : RunnerOp → Type
  | handle _ _ => Except String ExecutionResult

abbrev RunnerEvent := Prog.Event RunnerOp.Ans

abbrev ConsumerEvent := Prog.Event ConsumerOp.Ans

namespace KafkaConsumer

variable (c : KafkaConsumer) (errorText : DispatchEventError → String)

/-- `ConsumerRunner.ProcessMessage`; an error is its text. -/
def runnerProcessMessage (message : Message) : Prog RunnerOp.Ans (Option String) :=
  match parseDispatchEvent message.value with
  | .error e => .ret (some (errorText e))
  | .ok event =>
      if c.runnerHandler then
        .op (.handle message event) fun
          | .error err => .ret (some err)
          | .ok _ => .ret none
      else .ret (some "dispatch handler is not configured")

def processKafkaMessage (msg : Option KafkaMessage) : Prog RunnerOp.Ans (Option String) :=
  match msg with
  | none => .ret (some "kafka message is nil")
  | some msg => c.runnerProcessMessage errorText msg.message

end KafkaConsumer

/-! ## What is seen of a history -/

/-- What the pooled path is asked about: calls of the handler with its answers, calls of the
callback for a success, counted errors, and events for the dead-letter topic. -/
inductive Effect
  | handled (event : DispatchEvent) (answer : Except String ExecutionResult)
  | succeeded
  | failed
  | deadLettered (event : DeadLetterEvent)

def effect : ConsumerEvent → Option Effect
  | ⟨.handle _ item, answer⟩ => some (.handled item.event answer)
  | ⟨.inc .messagesProcessed, _⟩ => some .succeeded
  | ⟨.inc .messageErrors, _⟩ => some .failed
  | ⟨.publishDeadLetter event, _⟩ => some (.deadLettered event)
  | _ => none

def effects (h : List ConsumerEvent) : List Effect := h.filterMap effect

/-- The items that have been sent to the pool. -/
def sent (h : List ConsumerEvent) : List (ℕ × WorkItem) :=
  h.filterMap fun
    | ⟨.enqueue _ item, some ticket⟩ => some (ticket, item)
    | _ => none

/-- The queue had room for each item. -/
def Room (h : List ConsumerEvent) : Prop :=
  ∀ attempt item a, (⟨.enqueue attempt item, a⟩ : ConsumerEvent) ∈ h → a ≠ none

def handledEvents (h : List RunnerEvent) : List DispatchEvent :=
  h.map fun | ⟨.handle _ event, _⟩ => event

section

variable (handle : DispatchEvent → Except String ExecutionResult)

/-- The answers of the handler depend on the event only. -/
def Answered (h : List ConsumerEvent) : Prop :=
  ∀ event a, Effect.handled event a ∈ effects h → a = handle event

def RunnerAnswered (h : List RunnerEvent) : Prop :=
  ∀ message event a, (⟨.handle message event, a⟩ : RunnerEvent) ∈ h → a = handle event

variable (c : KafkaConsumer) (errorText : DispatchEventError → String)

/-- `ProcessKafkaMessage` has returned. -/
structure ProcessedAtOnce (msg : KafkaMessage) (h : List RunnerEvent) (result : Option String) :
    Prop where
  run : (c.processKafkaMessage errorText (some msg)).Leads h (.ret result)
  answered : RunnerAnswered handle h

/-- `enqueueKafkaMessage` has returned, with room in the queue, and a worker has run what it
has sent. -/
inductive ProcessedByPool (msg : KafkaMessage) : List ConsumerEvent → Prop
  | notSent {h : List ConsumerEvent} (hrun : (c.enqueueKafkaMessage errorText msg).Leads h (.ret ()))
      (hroom : Room h) (hsent : sent h = []) : ProcessedByPool msg h
  | ran {h h' : List ConsumerEvent} {ticket : ℕ} {item : WorkItem} (workerID : String)
      (hrun : (c.enqueueKafkaMessage errorText msg).Leads h (.ret ())) (hroom : Room h)
      (hsent : (ticket, item) ∈ sent h)
      (hitem : (c.runItem workerID ticket item).Leads h' (.ret ())) (hanswered : Answered handle h') :
      ProcessedByPool msg (h ++ h')

/-- What is to come of a message: the event that is handled, and the error. -/
def outcome (msg : KafkaMessage) : Option DispatchEvent × Option String :=
  match parseDispatchEvent msg.value with
  | .error e => (none, some (errorText e))
  | .ok event =>
      match handle event with
      | .error err => (some event, some err)
      | .ok _ => (some event, none)

variable {msg : KafkaMessage}

theorem processedAtOnce_outcome {h : List RunnerEvent} {result : Option String}
    (hhandler : c.runnerHandler = true) (hrun : ProcessedAtOnce handle c errorText msg h result) :
    handledEvents h = (outcome handle errorText msg).1.toList ∧
      result = (outcome handle errorText msg).2 := by
  have halways : (c.processKafkaMessage errorText (some msg)).Always (fun _ => True)
      (fun result h => RunnerAnswered handle h →
        handledEvents h = (outcome handle errorText msg).1.toList ∧
          result = (outcome handle errorText msg).2) [] := by
    rw [KafkaConsumer.processKafkaMessage, KafkaConsumer.runnerProcessMessage, KafkaMessage.message]
    cases hparse : parseDispatchEvent msg.value with
    | error e =>
        refine .ret trivial fun _ => ?_
        simp [outcome, hparse, handledEvents]
    | ok event =>
        simp only [hhandler, if_true]
        refine .op trivial fun a => ?_
        cases a with
        | error err =>
            refine .ret trivial fun h => ?_
            have ha := h _ event _ (List.mem_singleton_self _)
            simp [outcome, hparse, ← ha, handledEvents]
        | ok r =>
            refine .ret trivial fun h => ?_
            have ha := h _ event _ (List.mem_singleton_self _)
            simp [outcome, hparse, ← ha, handledEvents]
  cases halways.leads hrun.run with
  | ret _ hfinal => exact hfinal hrun.answered

/-! ## By the pool -/

theorem effects_append (h h' : List ConsumerEvent) : effects (h ++ h') = effects h ++ effects h' :=
  List.filterMap_append

theorem sent_append (h h' : List ConsumerEvent) : sent (h ++ h') = sent h ++ sent h' :=
  List.filterMap_append

/-- An operation that shows nothing. -/
theorem unseen_op {o : ConsumerOp} {next : o.Ans → Prog ConsumerOp.Ans Unit}
    {h : List ConsumerEvent} (hunseen : ∀ a, effect ⟨o, a⟩ = none ∧ sent [⟨o, a⟩] = [])
    (hnext : ∀ a, (next a).Always (fun _ => True)
      (fun _ h' => effects h' = effects (h ++ [⟨o, a⟩]) ∧ sent h' = sent (h ++ [⟨o, a⟩]))
      (h ++ [⟨o, a⟩])) :
    (Prog.op o next).Always (fun _ => True)
      (fun _ h' => effects h' = effects h ∧ sent h' = sent h) h := by
  refine .op trivial fun a => (hnext a).mono ?_
  rintro u h' - ⟨heffects, hsent⟩
  have hnone : effects [⟨o, a⟩] = [] := List.filterMap_cons_none (hunseen a).1
  rw [effects_append, hnone, List.append_nil] at heffects
  rw [sent_append, (hunseen a).2, List.append_nil] at hsent
  exact ⟨heffects, hsent⟩

/-- Backpressure is none of a message's business. -/
theorem effects_maybeApplyBackpressure (h : List ConsumerEvent) :
    c.maybeApplyBackpressure.Always (fun _ => True)
      (fun _ h' => effects h' = effects h ∧ sent h' = sent h) h := by
  rw [KafkaConsumer.maybeApplyBackpressure]
  refine unseen_op (fun _ => ⟨rfl, rfl⟩) fun depth => unseen_op (fun _ => ⟨rfl, rfl⟩) fun _ => ?_
  split
  · refine unseen_op (fun _ => ⟨rfl, rfl⟩) fun paused => ?_
    split
    · refine unseen_op (fun _ => ⟨rfl, rfl⟩) fun err => ?_
      cases err with
      | some err => exact .ret trivial ⟨rfl, rfl⟩
      | none => exact unseen_op (fun _ => ⟨rfl, rfl⟩) fun _ => .ret trivial ⟨rfl, rfl⟩
    · refine unseen_op (fun _ => ⟨rfl, rfl⟩) fun paused => ?_
      split
      · refine unseen_op (fun _ => ⟨rfl, rfl⟩) fun err => ?_
        cases err with
        | some err => exact .ret trivial ⟨rfl, rfl⟩
        | none => exact unseen_op (fun _ => ⟨rfl, rfl⟩) fun _ => .ret trivial ⟨rfl, rfl⟩
      · exact .ret trivial ⟨rfl, rfl⟩
  · exact .ret trivial ⟨rfl, rfl⟩

/-- The event a failed message is reported with: its own key, value and topic. -/
def deadLetter (msg : KafkaMessage) (reason worker : String) : DeadLetterEvent where
  reason := reason
  originalKey := msg.key
  originalValue := msg.value
  sourceTopic := if msg.topic.getD "" = "" then "unknown" else msg.topic.getD ""
  worker := worker

theorem deadLetter_eq (msg : KafkaMessage) (reason worker : String) :
    deadLetter msg reason worker =
      ⟨reason, msg.key, msg.value, sourceTopicFromMessage msg, worker⟩ := by
  rw [deadLetter, sourceTopicFromMessage]
  cases msg.topic with
  | none => rfl
  | some topic =>
      by_cases htopic : topic = ""
      · simp [htopic]
      · simp [htopic]

theorem effects_handleProcessingError (hdlq : c.deadLetterProducer = true) (h : List ConsumerEvent)
    (reason worker : String) :
    (c.handleProcessingErrorWithWorker msg reason worker).Always (fun _ => True)
      (fun _ h' => effects h' = effects h ++ [.failed, .deadLettered (deadLetter msg reason worker)] ∧
        sent h' = sent h) h := by
  rw [KafkaConsumer.handleProcessingErrorWithWorker, deadLetter_eq]
  simp only [hdlq, if_true]
  refine .op trivial fun _ => .op trivial fun err => ?_
  cases err with
  | some err =>
      refine .op trivial fun _ => .ret trivial ?_
      rw [List.append_assoc, List.append_assoc, effects_append, sent_append]
      exact ⟨rfl, List.append_nil _⟩
  | none =>
      refine .op trivial fun _ => .ret trivial ?_
      rw [List.append_assoc, List.append_assoc, effects_append, sent_append]
      exact ⟨rfl, List.append_nil _⟩

/-- **Enqueueing** reports what cannot be parsed, and sends the rest. -/
theorem effects_enqueue (hdlq : c.deadLetterProducer = true) :
    (c.enqueueKafkaMessage errorText msg).Always (fun _ => True) (fun _ h => Room h →
      match parseDispatchEvent msg.value with
      | .error e =>
          sent h = [] ∧ effects h = [.failed, .deadLettered (deadLetter msg (errorText e)
            workerIdentity)]
      | .ok event =>
          effects h = [] ∧ ∃ ticket, sent h = [(ticket, KafkaConsumer.workItem msg event)]) [] := by
  rw [KafkaConsumer.enqueueKafkaMessage]
  cases hparse : parseDispatchEvent msg.value with
  | error e =>
      refine .op trivial fun _ => ?_
      refine (effects_handleProcessingError c hdlq _ _ _).mono ?_
      rintro u h - ⟨heffects, hsent⟩ -
      exact ⟨hsent, heffects⟩
  | ok event =>
      refine .op trivial fun _ => .op trivial fun ticket => ?_
      cases ticket with
      | some ticket =>
          refine .op trivial fun _ => (effects_maybeApplyBackpressure c _).mono ?_
          rintro u h - ⟨heffects, hsent⟩ -
          exact ⟨heffects, ticket, hsent⟩
      | none =>
          -- there was no room
          refine ((Prog.Always.extends _ ([⟨.incMessagesSeen msg, ()⟩] ++
            [⟨.enqueue .first (KafkaConsumer.workItem msg event), none⟩] : List ConsumerEvent) _
            (List.prefix_refl _)).weaken fun _ _ => trivial).mono ?_
          rintro u h - hextends hroom
          exact absurd rfl (hroom .first (KafkaConsumer.workItem msg event) none
            (hextends.subset (by simp)))

/-- **A message that found room** is reported, or sent as an item. -/
theorem sent_of_enqueue {h : List ConsumerEvent} (hdlq : c.deadLetterProducer = true)
    (hrun : (c.enqueueKafkaMessage errorText msg).Leads h (.ret ())) (hroom : Room h) :
    match parseDispatchEvent msg.value with
    | .error e =>
        sent h = [] ∧ effects h = [.failed, .deadLettered (deadLetter msg (errorText e)
          workerIdentity)]
    | .ok event =>
        effects h = [] ∧ ∃ ticket, sent h = [(ticket, KafkaConsumer.workItem msg event)] := by
  cases (effects_enqueue c errorText hdlq).leads hrun with
  | ret _ hfinal => exact hfinal hroom

/-- The topic of an item is that of its message. -/
theorem deadLetter_workItem (event : DispatchEvent) (reason worker : String) :
    deadLetter
        { key := (KafkaConsumer.workItem msg event).originalKey
          value := (KafkaConsumer.workItem msg event).originalValue
          topic :=
            if (KafkaConsumer.workItem msg event).sourceTopic ≠ "" then
              some (KafkaConsumer.workItem msg event).sourceTopic
            else none } reason worker = deadLetter msg reason worker := by
  rw [deadLetter_eq, deadLetter_eq, sourceTopicFromMessage_workItem]
  rfl

/-- **Running an item** handles it, and reports what the handler refuses. -/
theorem effects_runItem (hdlq : c.deadLetterProducer = true) (workerID : String) (ticket : ℕ)
    (event : DispatchEvent) :
    (c.runItem workerID ticket (KafkaConsumer.workItem msg event)).Always (fun _ => True)
      (fun _ h => Answered handle h →
        match handle event with
        | .error err => effects h = [.handled event (.error err), .failed,
            .deadLettered (deadLetter msg err (KafkaConsumer.workerNameForPoolWorker workerID))]
        | .ok r => effects h = [.handled event (.ok r), .succeeded]) [] := by
  rw [KafkaConsumer.runItem]
  refine .op trivial fun a => ?_
  cases a with
  | error err =>
      refine (effects_handleProcessingError c hdlq _ _ _).mono ?_
      rintro u h - ⟨heffects, -⟩ hanswered
      rw [deadLetter_workItem] at heffects
      have ha : .error err = handle event :=
        hanswered event (.error err) (by rw [heffects]; exact List.mem_cons_self)
      rw [← ha]
      exact heffects
  | ok r =>
      refine .op trivial fun _ => (effects_maybeApplyBackpressure c _).mono ?_
      rintro u h - ⟨heffects, -⟩ hanswered
      have ha : .ok r = handle event :=
        hanswered event (.ok r) (by rw [heffects]; exact List.mem_cons_self)
      rw [← ha]
      exact heffects

def handledByPool (h : List ConsumerEvent) : List DispatchEvent :=
  (effects h).filterMap fun
    | .handled event _ => some event
    | _ => none

def callbacks (h : List ConsumerEvent) : ℕ :=
  (effects h).countP fun
    | .succeeded => true
    | _ => false

def messageErrors (h : List ConsumerEvent) : ℕ :=
  (effects h).countP fun
    | .failed => true
    | _ => false

def deadLetters (h : List ConsumerEvent) : List DeadLetterEvent :=
  (effects h).filterMap fun
    | .deadLettered event => some event
    | _ => none

/-- **The pool has the same outcome.** -/
theorem processedByPool_outcome {h : List ConsumerEvent} (hdlq : c.deadLetterProducer = true)
    (hrun : ProcessedByPool handle c errorText msg h) :
    handledByPool h = (outcome handle errorText msg).1.toList ∧
      match (outcome handle errorText msg).2 with
      | none => callbacks h = 1 ∧ messageErrors h = 0 ∧ deadLetters h = []
      | some err => callbacks h = 0 ∧ messageErrors h = 1 ∧
          ∃ worker, deadLetters h = [deadLetter msg err worker] := by
  cases hrun with
  | notSent hrun hroom hsent =>
      have h := sent_of_enqueue c errorText hdlq hrun hroom
      cases hparse : parseDispatchEvent msg.value with
      | error e =>
          rw [hparse] at h
          simp [outcome, hparse, handledByPool, callbacks, messageErrors, deadLetters, h.2]
      | ok event =>
          rw [hparse] at h
          obtain ⟨-, ticket, hitem⟩ := h
          rw [hsent] at hitem
          cases hitem
  | @ran h₁ h₂ ticket item workerID hrun hroom hsent hitem hanswered =>
      have h := sent_of_enqueue c errorText hdlq hrun hroom
      cases hparse : parseDispatchEvent msg.value with
      | error e =>
          rw [hparse] at h
          rw [h.1] at hsent
          cases hsent
      | ok event =>
          rw [hparse] at h
          obtain ⟨hnone, ticket', hone⟩ := h
          rw [hone, List.mem_singleton] at hsent
          cases hsent
          cases (effects_runItem handle c hdlq workerID ticket event).leads hitem with
          | ret _ hfinal =>
              have heffects := hfinal hanswered
              simp only [outcome, hparse, handledByPool, callbacks, messageErrors, deadLetters,
                effects_append, hnone, List.nil_append]
              cases hhandle : handle event with
              | error err =>
                  rw [hhandle] at heffects
                  simp [heffects]
              | ok r =>
                  rw [hhandle] at heffects
                  simp [heffects]

/-- **At once or by the pool**: the same event is handled, if any; one returns no error
exactly if the other calls back with a success, and it returns an error exactly if the other
counts one and reports it with the message's own key, value and topic. -/
theorem pool_agrees {h : List RunnerEvent} {h' : List ConsumerEvent} {result : Option String}
    (hhandler : c.runnerHandler = true) (hdlq : c.deadLetterProducer = true)
    (hatOnce : ProcessedAtOnce handle c errorText msg h result)
    (hpool : ProcessedByPool handle c errorText msg h') :
    handledEvents h = handledByPool h' ∧ (handledEvents h).length ≤ 1 ∧
      (result = none ↔ 0 < callbacks h') ∧
      ∀ err, result = some err ↔ messageErrors h' = 1 ∧
        ∃ worker, deadLetters h' = [deadLetter msg err worker] := by
  obtain ⟨hhandled, hresult⟩ := processedAtOnce_outcome handle c errorText hhandler hatOnce
  obtain ⟨hhandled', hrest⟩ := processedByPool_outcome handle c errorText hdlq hpool
  refine ⟨hhandled.trans hhandled'.symm, ?_, ?_, ?_⟩
  · rw [hhandled]
    cases (outcome handle errorText msg).1 <;> simp
  · rw [hresult]
    cases hout : (outcome handle errorText msg).2 with
    | none =>
        rw [hout] at hrest
        simp [hrest.1]
    | some err =>
        rw [hout] at hrest
        simp [hrest.1]
  · intro err
    rw [hresult]
    cases hout : (outcome handle errorText msg).2 with
    | none =>
        rw [hout] at hrest
        simp [hrest.2.1]
    | some err' =>
        rw [hout] at hrest
        obtain ⟨-, herrors, worker, hdead⟩ := hrest
        constructor
        · rintro h
          cases h
          exact ⟨herrors, worker, hdead⟩
        · rintro ⟨-, worker', hdead'⟩
          rw [hdead, List.cons.injEq] at hdead'
          exact congrArg some (congrArg DeadLetterEvent.reason hdead'.1)

/-! ## There are such histories -/

theorem exists_processedAtOnce (msg : KafkaMessage) :
    ∃ h result, ProcessedAtOnce handle c errorText msg h result := by
  have hleads := Prog.Leads.record (.start (p := c.processKafkaMessage errorText (some msg)))
    (fun (_ : Unit) (.handle _ event) => ((), handle event)) ()
  rw [List.nil_append] at hleads
  refine ⟨_, _, hleads, ?_⟩
  intro message event a ha
  obtain ⟨u, hanswer⟩ := Prog.answer_of_mem_record ha
  exact hanswer

/-- The surroundings of a single message: the queue is empty. -/
def roomyAnswer : Unit → (o : ConsumerOp) → Unit × o.Ans
  | _, .enqueue _ _ => ((), some 0)
  | _, .handle _ item => ((), handle item.event)
  | _, _ => ((), default)

theorem room_roomyAnswer (p : ConsumerProgram Unit) :
    Room (p.record (roomyAnswer handle) ()) := by
  rintro attempt item a ha rfl
  obtain ⟨u, hanswer⟩ := Prog.answer_of_mem_record ha
  cases hanswer

theorem answered_roomyAnswer (p : ConsumerProgram Unit) :
    Answered handle (p.record (roomyAnswer handle) ()) := by
  intro event a ha
  obtain ⟨⟨o, a'⟩, hmem, heffect⟩ := List.mem_filterMap.mp ha
  obtain ⟨u, hanswer⟩ := Prog.answer_of_mem_record hmem
  cases o with
  | handle ticket item =>
      simp only [effect, Option.some.injEq, Effect.handled.injEq] at heffect
      obtain ⟨rfl, rfl⟩ := heffect
      exact hanswer
  | inc counter => cases counter <;> cases heffect
  | _ => cases heffect

theorem exists_processedByPool (hdlq : c.deadLetterProducer = true) (msg : KafkaMessage) :
    ∃ h, ProcessedByPool handle c errorText msg h := by
  have hleads := Prog.Leads.record (.start (p := c.enqueueKafkaMessage errorText msg))
    (roomyAnswer handle) ()
  rw [List.nil_append] at hleads
  have hroom := room_roomyAnswer handle (c.enqueueKafkaMessage errorText msg)
  have hsent := sent_of_enqueue c errorText hdlq hleads hroom
  cases hparse : parseDispatchEvent msg.value with
  | error e =>
      rw [hparse] at hsent
      exact ⟨_, .notSent hleads hroom hsent.1⟩
  | ok event =>
      rw [hparse] at hsent
      obtain ⟨-, ticket, hone⟩ := hsent
      have hitem := Prog.Leads.record (.start (p := c.runItem "worker-1" ticket
        (KafkaConsumer.workItem msg event))) (roomyAnswer handle) ()
      rw [List.nil_append] at hitem
      refine ⟨_, .ran "worker-1" hleads hroom ?_ hitem (answered_roomyAnswer handle _)⟩
      rw [hone]
      exact List.mem_singleton_self _

end

/-- A message whose handler fails, among others. -/
theorem pool_agrees_dispatchMessage : ∃ h h' result,
    handledEvents h = handledByPool h' ∧ (handledEvents h).length ≤ 1 ∧
      (result = none ↔ 0 < callbacks h') ∧
      ∀ err, result = some err ↔ messageErrors h' = 1 ∧
        ∃ worker, deadLetters h' = [deadLetter dispatchMessage err worker] := by
  obtain ⟨h, result, hatOnce⟩ := exists_processedAtOnce (fun _ => .error "handler failed")
    memoryConsumer dispatchErrorText dispatchMessage
  obtain ⟨h', hpool⟩ := exists_processedByPool (fun _ => .error "handler failed")
    memoryConsumer dispatchErrorText rfl dispatchMessage
  exact ⟨h, h', result, pool_agrees _ _ _ rfl rfl hatOnce hpool⟩

end KernelQ.Worker
