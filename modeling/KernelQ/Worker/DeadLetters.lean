import KernelQ.Foundation.JsonBytes
import KernelQ.Worker.KafkaConsumer

/-!
# Dead letters

`dlq.go` and `kafka_dlq_producer.go`, behind the error paths of the consumer. Validation
has the last word on what is published: a message whose value is blank fails to parse
(`parseDispatchEvent_blank`) and is not published, so over a client that never fails
`deadLettered_iff` is all there is to lose.
-/

namespace KernelQ.Worker

open KernelQ.Foundation

def dlqTopic : String := "kernelq.jobs.dlq"

def dlqFlushTimeoutMs : ℕ := 5000

inductive DeadLetterError
  | reasonBlank | originalValueBlank | sourceTopicBlank | workerBlank
  deriving DecidableEq

def DeadLetterError.text : DeadLetterError → String
  | reasonBlank => "reason must not be blank"
  | originalValueBlank => "original_value must not be blank"
  | sourceTopicBlank => "source_topic must not be blank"
  | workerBlank => "worker must not be blank"

namespace DeadLetterEvent

/-- A key may be blank. -/
def validate (e : DeadLetterEvent) : Except DeadLetterError Unit :=
  if trimSpace e.reason = "" then .error .reasonBlank
  else if trimSpace (String.ofList (runes e.originalValue)) = "" then .error .originalValueBlank
  else if trimSpace e.sourceTopic = "" then .error .sourceTopicBlank
  else if trimSpace e.worker = "" then .error .workerBlank
  else .ok ()

/-- The JSON tags, and what is written under them. -/
def members (e : DeadLetterEvent) : List (String × ByteArray) :=
  [("reason", e.reason.toUTF8), ("original_key", e.originalKey),
    ("original_value", e.originalValue), ("source_topic", e.sourceTopic.toUTF8),
    ("worker", e.worker.toUTF8)]

def toJSON (e : DeadLetterEvent) : Except DeadLetterError String :=
  match e.validate with
  | .error err => .error err
  | .ok () => .ok (String.ofList (Style.go.stringStruct e.members))

theorem validate_eq_ok_iff {e : DeadLetterEvent} : e.validate = .ok () ↔
    trimSpace e.reason ≠ "" ∧ trimSpace (String.ofList (runes e.originalValue)) ≠ "" ∧
      trimSpace e.sourceTopic ≠ "" ∧ trimSpace e.worker ≠ "" := by
  unfold validate
  constructor
  · intro h
    split at h
    · cases h
    split at h
    · cases h
    split at h
    · cases h
    split at h
    · cases h
    · rename_i h₁ h₂ h₃ h₄
      exact ⟨h₁, h₂, h₃, h₄⟩
  · rintro ⟨h₁, h₂, h₃, h₄⟩
    rw [if_neg h₁, if_neg h₂, if_neg h₃, if_neg h₄]

theorem toJSON_of_valid {e : DeadLetterEvent} (h : e.validate = .ok ()) :
    e.toJSON = .ok (String.ofList (Style.go.stringStruct e.members)) := by
  rw [toJSON, h]

end DeadLetterEvent

/-! ## The producer -/

/-- A `kafka.Message`, as it is produced. -/
structure ProducerMessage where
  topic : String
  key : ByteArray
  value : ByteArray

/-- The calls of a `KafkaProducerClient`. -/
inductive ProducerOp
  | produce (msg : ProducerMessage)
  | flush (timeoutMs : ℕ)

/-- An error of `Produce`, if any; how many messages `Flush` leaves in the queue. -/
@[reducible] def ProducerOp.Ans : ProducerOp → Type
  | produce _ => Option String
  | flush _ => ℤ

inductive DeadLetterPublishError
  | invalid (e : DeadLetterError)
  | produce (message : String)
  | flush (remaining : ℤ)

def DeadLetterPublishError.text : DeadLetterPublishError → String
  | invalid e => e.text
  | produce message => "produce dead-letter event: " ++ message
  | flush remaining =>
      "flush dead-letter event: " ++ String.ofList (intText remaining) ++
        " message(s) still in queue"

structure KafkaDeadLetterProducer where
  topic : String := dlqTopic

/-- `Produce` and `Flush`. -/
def send (msg : ProducerMessage) : Prog ProducerOp.Ans (Option DeadLetterPublishError) :=
  .op (.produce msg) fun
    | some err => .ret (some (.produce err))
    | none =>
        .op (.flush dlqFlushTimeoutMs) fun remaining =>
          if 0 < remaining then .ret (some (.flush remaining)) else .ret none

/-- The messages that a history of calls has put on a topic. -/
def written (h : List (Prog.Event ProducerOp.Ans)) : List ProducerMessage :=
  h.filterMap fun
    | ⟨.produce msg, none⟩ => some msg
    | _ => none

/-- A client whose calls never fail. -/
structure Reliable {σ : Type} (client : σ → (o : ProducerOp) → σ × o.Ans) : Prop where
  produce : ∀ s msg, (client s (.produce msg)).2 = none
  flush : ∀ s timeoutMs, (client s (.flush timeoutMs)).2 ≤ 0

section

variable {σ : Type} {client : σ → (o : ProducerOp) → σ × o.Ans}

theorem written_of_sent {msg : ProducerMessage} {s : σ} (h : ((send msg).run client s).2 = none) :
    written ((send msg).record client s) = [msg] := by
  simp only [send, Prog.run_op, Prog.record] at h ⊢
  cases hproduce : (client s (.produce msg)).2 with
  | some err =>
      rw [hproduce] at h
      cases h
  | none =>
      simp only [Prog.record]
      split <;> rfl

theorem sent_of_reliable (hclient : Reliable client) (msg : ProducerMessage) (s : σ) :
    ((send msg).run client s).2 = none := by
  simp only [send, Prog.run_op, hclient.produce]
  rw [if_neg (not_lt.mpr (hclient.flush _ _))]
  rfl

end

namespace KafkaDeadLetterProducer

variable (p : KafkaDeadLetterProducer) {σ : Type} {client : σ → (o : ProducerOp) → σ × o.Ans}

def publishDeadLetter (event : DeadLetterEvent) :
    Prog ProducerOp.Ans (Option DeadLetterPublishError) :=
  match event.validate with
  | .error e => .ret (some (.invalid e))
  | .ok () =>
      match event.toJSON with
      | .error e => .ret (some (.invalid e))
      | .ok jsonPayload =>
          send
            { topic := p.topic
              key := event.originalKey
              value := jsonPayload.toUTF8 }

/-- What is produced for a valid event. -/
def message (event : DeadLetterEvent) : ProducerMessage where
  topic := p.topic
  key := event.originalKey
  value := (String.ofList (Style.go.stringStruct event.members)).toUTF8

theorem publish_of_valid {event : DeadLetterEvent} (h : event.validate = .ok ()) :
    p.publishDeadLetter event = send (p.message event) := by
  rw [publishDeadLetter, h]
  simp only [DeadLetterEvent.toJSON_of_valid h]
  rfl

theorem publish_of_invalid {event : DeadLetterEvent} {e : DeadLetterError}
    (h : event.validate = .error e) : p.publishDeadLetter event = .ret (some (.invalid e)) := by
  rw [publishDeadLetter, h]

/-- **What is published is valid**, and one message. -/
theorem written_of_published {event : DeadLetterEvent} {s : σ}
    (h : ((p.publishDeadLetter event).run client s).2 = none) :
    event.validate = .ok () ∧
      written ((p.publishDeadLetter event).record client s) = [p.message event] := by
  cases hvalid : event.validate with
  | error e =>
      rw [p.publish_of_invalid hvalid] at h
      cases h
  | ok u =>
      rw [p.publish_of_valid hvalid] at h ⊢
      exact ⟨rfl, written_of_sent h⟩

end KafkaDeadLetterProducer

/-! ## Blank messages -/

/-- No word of a JSON text is white space. -/
theorem wordToken_blank {w : List Char} (hw : ∀ c ∈ w, isSpace c = true) : wordToken w = none := by
  cases w with
  | nil => rfl
  | cons c w =>
      have hne : ∀ d v, isSpace d = false → c :: w ≠ d :: v := by
        rintro d v hd h
        have hc := hw c List.mem_cons_self
        rw [(List.cons.inj h).1, hd] at hc
        cases hc
      have hstart : NumState.start.next c = none := by
        have hminus : c ≠ '-' := fun h => hne '-' w (by decide) (by rw [h])
        have hzero : c ≠ '0' := fun h => hne '0' w (by decide) (by rw [h])
        have hdigit : ¬ c.isDigit = true := by
          intro h
          have hspace := hw c List.mem_cons_self
          simp only [Char.isDigit, ge_iff_le, Bool.and_eq_true, decide_eq_true_eq,
            UInt32.le_iff_toNat_le] at h
          simp only [isSpace, decide_eq_true_eq, List.mem_cons, List.not_mem_nil, or_false] at hspace
          have hlow : 48 ≤ c.toNat := h.1
          have hhigh : c.toNat ≤ 57 := h.2
          omega
        rw [NumState.next, if_neg hminus, if_neg hzero, if_neg hdigit]
      have hint : ¬ isIntLiteral (c :: w) = true := by
        simp [isIntLiteral, NumState.scan, hstart]
      have hdec : ¬ isDecimalLiteral (c :: w) = true := by
        simp [isDecimalLiteral, NumState.scan, hstart]
      rw [wordToken, if_neg (hne _ _ (by decide)), if_neg (hne _ _ (by decide)),
        if_neg (hne _ _ (by decide)), if_neg hint, dif_neg hdec]

theorem begin_blank {c : Char} (hc : isSpace c = true) :
    LexState.begin c = ([], .between) ∨ LexState.begin c = ([], .word [c]) := by
  by_cases hdel : c ∈ delimiters
  · have hjson : Foundation.isSpace c = true := by
      simp only [delimiters, List.mem_cons, List.not_mem_nil, or_false] at hdel
      rcases hdel with rfl | rfl | rfl | rfl | rfl | rfl | rfl | rfl | rfl | rfl | rfl <;>
        first | rfl | exact absurd hc (by decide)
    left
    rw [LexState.begin, if_pos hjson]
  · exact .inr (begin_of_not_delimiter hdel)

/-- A blank text has no tokens, if it can be scanned at all. -/
theorem lex_blank (lone : Option Char) {cs : List Char} : ∀ acc : List Char,
    (∀ c ∈ cs, isSpace c = true) → (∀ c ∈ acc, isSpace c = true) →
    (lex lone .between cs = none ∨ lex lone .between cs = some []) ∧
      lex lone (.word acc) cs = none := by
  induction cs with
  | nil =>
      intro acc _ hacc
      refine ⟨.inr rfl, ?_⟩
      rw [lex, LexState.finish, wordToken_blank fun c hc => hacc c (List.mem_reverse.mp hc)]
      rfl
  | cons c cs ih =>
      intro acc hcs hacc
      have hc := hcs c List.mem_cons_self
      have hrest : ∀ d ∈ cs, isSpace d = true := fun d hd => hcs d (List.mem_cons_of_mem _ hd)
      refine ⟨?_, ?_⟩
      · rw [lex, LexState.next]
        rcases begin_blank hc with h | h
        · rw [h]
          rcases (ih [] hrest (by simp)).1 with hlex | hlex
          · exact .inl (by simp [hlex])
          · exact .inr (by simp [hlex])
        · rw [h]
          exact .inl (by simp [(ih [c] hrest (by simpa using hc)).2])
      · rw [lex, LexState.next]
        split
        · rw [wordToken_blank fun d hd => hacc d (List.mem_reverse.mp hd)]
          rfl
        · have hmore : ∀ d ∈ c :: acc, isSpace d = true := by
            intro d hd
            rcases List.mem_cons.mp hd with rfl | hd
            · exact hc
            · exact hacc d hd
          simp [(ih (c :: acc) hrest hmore).2]

/-- **A blank message is no dispatch event.** -/
theorem parseDispatchEvent_blank {data : ByteArray}
    (hdata : trimSpace (String.ofList (runes data)) = "") :
    parseDispatchEvent data = .error (.unmarshal .malformed) := by
  have hall := (trim_eq_empty_iff isSpace _).mp hdata
  rw [String.toList_ofList] at hall
  have hparse : Json.parse (some replacementChar) (runes data) = none := by
    rw [Json.parse]
    rcases (lex_blank (some replacementChar) [] hall (by simp)).1 with h | h
    · rw [h]
      rfl
    · rw [h]
      rfl
  rw [parseDispatchEvent, unmarshal, hparse]

theorem not_blank_append {s : String} (hs : trimSpace s ≠ "") (t : String) :
    trimSpace (s ++ t) ≠ "" := by
  intro h
  apply hs
  rw [trimSpace, trim_eq_empty_iff] at h ⊢
  intro c hc
  exact h c (by rw [String.toList_append]; exact List.mem_append_left _ hc)

/-- No error text of the worker is blank, as long as those of the decoder are not. -/
theorem errorText_not_blank {quote : String → String} {unmarshalText : UnmarshalError → String}
    (htext : ∀ e, trimSpace (unmarshalText e) ≠ "") (e : DispatchEventError) :
    trimSpace (e.text quote unmarshalText) ≠ "" := by
  cases e with
  | unmarshal e => exact htext e
  | eventType got =>
      have h : trimSpace "event_type must be " ≠ "" := by decide +kernel
      exact not_blank_append (not_blank_append (not_blank_append h _) _) _
  | jobIdBlank => exact show trimSpace "job_id must not be blank" ≠ "" by decide +kernel
  | tenantIdBlank => exact show trimSpace "tenant_id must not be blank" ≠ "" by decide +kernel
  | priority got =>
      exact not_blank_append (show trimSpace "priority must be >= 0, got " ≠ "" by decide +kernel) _
  | attempt got =>
      exact not_blank_append (show trimSpace "attempt must be >= 0, got " ≠ "" by decide +kernel) _
  | state got =>
      have h : trimSpace "state must be " ≠ "" := by decide +kernel
      exact not_blank_append (not_blank_append (not_blank_append h _) _) _

/-! ## The error paths -/

/-- The surroundings of the consumer: the client of its dead-letter producer, what has been
written, and the counters. -/
structure DeadLetterWorld (σ : Type) where
  client : σ
  written : List ProducerMessage
  counts : Counter → ℕ

namespace DeadLetterWorld

variable {σ : Type}

def count (w : DeadLetterWorld σ) (counter : Counter) : DeadLetterWorld σ :=
  { w with counts := Function.update w.counts counter (w.counts counter + 1) }

/-- What the operations of the error paths do; the others answer as they like. -/
def step (client : σ → (o : ProducerOp) → σ × o.Ans) (p : KafkaDeadLetterProducer)
    (handle : WorkItem → Except String ExecutionResult) (others : (o : ConsumerOp) → o.Ans) :
    DeadLetterWorld σ → (o : ConsumerOp) → DeadLetterWorld σ × o.Ans
  | w, .incMessagesSeen _ => (w.count .messagesSeen, ())
  | w, .inc counter => (w.count counter, ())
  | w, .publishDeadLetter event =>
      let published := (p.publishDeadLetter event).run client w.client
      ({ w with
          client := published.1
          written := w.written ++ Worker.written ((p.publishDeadLetter event).record client w.client) },
        published.2.map DeadLetterPublishError.text)
  | w, .handle _ item => (w, handle item)
  | w, o => (w, others o)

/-- One message more on the topic, counted as published and not as an error. -/
def DeadLettered (p : KafkaDeadLetterProducer) (w w' : DeadLetterWorld σ) : Prop :=
  (∃ msg, w'.written = w.written ++ [msg] ∧ msg.topic = p.topic) ∧
    w'.counts .deadLettersPublished = w.counts .deadLettersPublished + 1 ∧
    w'.counts .deadLetterPublishErrors = w.counts .deadLetterPublishErrors

end DeadLetterWorld

section

open DeadLetterWorld

variable {σ : Type} {client : σ → (o : ProducerOp) → σ × o.Ans} (hclient : Reliable client)
  (p : KafkaDeadLetterProducer) (c : KafkaConsumer)
  (handle : WorkItem → Except String ExecutionResult) (others : (o : ConsumerOp) → o.Ans)

include hclient in
/-- **An error is dead-lettered** exactly if its event is valid. -/
theorem deadLettered_error_iff (w : DeadLetterWorld σ) (msg : KafkaMessage)
    (processingErr workerName : String) :
    DeadLettered p w
        ((({ c with deadLetterProducer := true } : KafkaConsumer).handleProcessingErrorWithWorker msg
          processingErr workerName).run (step client p handle others) w).1 ↔
      DeadLetterEvent.validate
        { reason := processingErr
          originalKey := msg.key
          originalValue := msg.value
          sourceTopic := sourceTopicFromMessage msg
          worker := workerName } = .ok () := by
  obtain ⟨event, hevent⟩ : ∃ event : DeadLetterEvent, event =
      { reason := processingErr
        originalKey := msg.key
        originalValue := msg.value
        sourceTopic := sourceTopicFromMessage msg
        worker := workerName } := ⟨_, rfl⟩
  simp only [KafkaConsumer.handleProcessingErrorWithWorker, if_true, Prog.run_op, step, ← hevent]
  cases hvalid : event.validate with
  | error e =>
      -- nothing is written
      simp [p.publish_of_invalid hvalid, DeadLettered, Worker.written, Prog.record, count, step]
  | ok u =>
      have hsent := sent_of_reliable hclient (p.message event) w.client
      rw [p.publish_of_valid hvalid]
      simp only [count, hsent, Option.map_none, Prog.run_op, Prog.run_ret, step, iff_true]
      refine ⟨⟨p.message event, by rw [written_of_sent hsent], rfl⟩, ?_, ?_⟩
      · simp [Function.update]
      · simp [Function.update]

include hclient in
/-- The same, by what makes an event valid. -/
theorem deadLettered_error_iff' (w : DeadLetterWorld σ) (msg : KafkaMessage)
    (processingErr : String) {workerName : String} (hworker : trimSpace workerName ≠ "") :
    DeadLettered p w
        ((({ c with deadLetterProducer := true } : KafkaConsumer).handleProcessingErrorWithWorker msg
          processingErr workerName).run (step client p handle others) w).1 ↔
      trimSpace processingErr ≠ "" ∧ trimSpace (String.ofList (runes msg.value)) ≠ "" ∧
        trimSpace (sourceTopicFromMessage msg) ≠ "" := by
  rw [deadLettered_error_iff hclient, DeadLetterEvent.validate_eq_ok_iff]
  simp only [ne_eq, hworker, not_false_eq_true, and_true]

variable {errorText : DispatchEventError → String}

theorem run_enqueue_error (w : DeadLetterWorld σ) {msg : KafkaMessage} {e : DispatchEventError}
    (he : parseDispatchEvent msg.value = .error e) :
    (c.enqueueKafkaMessage errorText msg).run (step client p handle others) w =
      (c.handleProcessingErrorWithWorker msg (errorText e) workerIdentity).run
        (step client p handle others) (w.count .messagesSeen) := by
  rw [KafkaConsumer.enqueueKafkaMessage, Prog.run_op, he]
  rfl

theorem deadLettered_count (w w' : DeadLetterWorld σ) :
    DeadLettered p (w.count .messagesSeen) w' ↔ DeadLettered p w w' := by
  simp [DeadLettered, count, Function.update]

theorem sourceTopicFromMessage_ne_empty (msg : KafkaMessage) : sourceTopicFromMessage msg ≠ "" := by
  unfold sourceTopicFromMessage
  split
  · split
    · assumption
    · decide
  · decide

/-- A worker gives an item the topic of its message. -/
theorem sourceTopicFromMessage_workItem (msg : KafkaMessage) (event : DispatchEvent) :
    sourceTopicFromMessage
        { key := (KafkaConsumer.workItem msg event).originalKey
          value := (KafkaConsumer.workItem msg event).originalValue
          topic :=
            if (KafkaConsumer.workItem msg event).sourceTopic ≠ "" then
              some (KafkaConsumer.workItem msg event).sourceTopic
            else none } = sourceTopicFromMessage msg := by
  have hne := sourceTopicFromMessage_ne_empty msg
  rw [KafkaConsumer.workItem, if_pos hne]
  exact if_pos hne

theorem run_item_error (w : DeadLetterWorld σ) {item : WorkItem} {err : String}
    (herr : handle item = .error err) (workerID : String) (ticket : ℕ) :
    (c.runItem workerID ticket item).run (step client p handle others) w =
      (c.handleWorkItemError workerID item err).run (step client p handle others) w := by
  rw [KafkaConsumer.runItem, Prog.run_op, step, herr]

include hclient in
/-- **What is dead-lettered.** A message that cannot be parsed is, unless its value or its
topic is blank; one whose handler fails is, unless its topic or the text of the error is. -/
theorem deadLettered_iff {quote : String → String} {unmarshalText : UnmarshalError → String}
    (htext : ∀ e, trimSpace (unmarshalText e) ≠ "") (w : DeadLetterWorld σ) (msg : KafkaMessage) :
    (∀ e, parseDispatchEvent msg.value = .error e →
      (DeadLettered p w
          ((({ c with deadLetterProducer := true } : KafkaConsumer).enqueueKafkaMessage
            (DispatchEventError.text quote unmarshalText) msg).run
              (step client p handle others) w).1 ↔
        trimSpace (String.ofList (runes msg.value)) ≠ "" ∧
          trimSpace (sourceTopicFromMessage msg) ≠ "")) ∧
    ∀ event err workerID ticket, parseDispatchEvent msg.value = .ok event →
      handle (KafkaConsumer.workItem msg event) = .error err →
      (DeadLettered p w
          ((({ c with deadLetterProducer := true } : KafkaConsumer).runItem workerID ticket
            (KafkaConsumer.workItem msg event)).run (step client p handle others) w).1 ↔
        trimSpace (sourceTopicFromMessage msg) ≠ "" ∧ trimSpace err ≠ "") := by
  have hidentity : trimSpace workerIdentity ≠ "" := by decide +kernel
  refine ⟨?_, ?_⟩
  · intro e he
    rw [run_enqueue_error _ _ _ _ _ he, ← deadLettered_count,
      deadLettered_error_iff' hclient _ _ _ _ _ _ _ hidentity]
    simp only [ne_eq, errorText_not_blank htext, not_false_eq_true, true_and]
  · intro event err workerID ticket hevent herr
    -- what could be parsed is not blank
    have hvalue : trimSpace (String.ofList (runes msg.value)) ≠ "" := by
      intro h
      rw [parseDispatchEvent_blank h] at hevent
      cases hevent
    have hworker : trimSpace (KafkaConsumer.workerNameForPoolWorker workerID) ≠ "" :=
      not_blank_append (not_blank_append hidentity _) _
    rw [run_item_error _ _ _ _ _ herr, KafkaConsumer.handleWorkItemError,
      deadLettered_error_iff' hclient _ _ _ _ _ _ _ hworker, sourceTopicFromMessage_workItem]
    simp only [KafkaConsumer.workItem, ne_eq, hvalue, not_false_eq_true, true_and, and_comm]

end

/-! ## A message without a value -/

/-- A client that keeps what is produced. -/
def memoryClient : List ProducerMessage → (o : ProducerOp) → List ProducerMessage × o.Ans
  | msgs, .produce msg => (msgs ++ [msg], none)
  | msgs, .flush _ => (msgs, 0)

theorem memoryClient_reliable : Reliable memoryClient where
  produce _ _ := rfl
  flush _ _ := le_refl 0

namespace DeadLetterWorld

/-- Nothing has happened yet. -/
def fresh : DeadLetterWorld (List ProducerMessage) := ⟨[], [], fun _ => 0⟩

/-- In-memory surroundings, with a handler that refuses every event. -/
def memoryStep : DeadLetterWorld (List ProducerMessage) → (o : ConsumerOp) →
    DeadLetterWorld (List ProducerMessage) × o.Ans :=
  step memoryClient {} (fun _ => .error "handler failed") fun _ => default

end DeadLetterWorld

def dispatchMembers : List (String × Json) :=
  [("event_type", .str "job.dispatch"), ("job_id", .str "job"), ("tenant_id", .str "tenant"),
    ("state", .str "dispatched")]

def dispatchMessage : KafkaMessage where
  key := "job".toUTF8
  value := (String.ofList ((Json.obj dispatchMembers).render .go)).toUTF8

def dispatchedEvent : DispatchEvent where
  eventType := "job.dispatch"
  jobId := "job"
  tenantId := "tenant"
  state := "dispatched"

theorem parse_dispatchMessage : parseDispatchEvent dispatchMessage.value = .ok dispatchedEvent := by
  have hstore : (storeMembers DispatchEvent.fields {} dispatchMembers).toOption =
      some dispatchedEvent := by decide +kernel
  have hvalid : dispatchedEvent.validate = .ok () :=
    DispatchEvent.validate_eq_ok_iff.mpr
      ⟨rfl, by decide +kernel, by decide +kernel, by decide, by decide, rfl⟩
  rw [parseDispatchEvent, dispatchMessage, unmarshal_render]
  cases h : storeMembers DispatchEvent.fields {} dispatchMembers with
  | error e =>
      rw [h] at hstore
      cases hstore
  | ok e =>
      rw [h] at hstore
      obtain rfl : e = dispatchedEvent := Option.some.inj hstore
      simp only [hvalid]

def emptyMessage : KafkaMessage := { dispatchMessage with value := ByteArray.empty }

theorem emptyMessage_blank : trimSpace (String.ofList (runes emptyMessage.value)) = "" := rfl

section

open DeadLetterWorld

def memoryConsumer : KafkaConsumer := { deadLetterProducer := true }

/-- What `encoding/json` says of a value that ends too early, and of a member of a wrong type. -/
def jsonErrorText : UnmarshalError → String
  | .malformed => "unexpected end of JSON input"
  | .mismatch value none type =>
      "json: cannot unmarshal " ++ value ++ " into Go value of type " ++ type
  | .mismatch value (some field) type =>
      "json: cannot unmarshal " ++ value ++ " into Go struct field DispatchEvent." ++ field ++
        " of type " ++ type

theorem jsonErrorText_not_blank (e : UnmarshalError) : trimSpace (jsonErrorText e) ≠ "" := by
  have hmismatch : trimSpace "json: cannot unmarshal " ≠ "" := by decide +kernel
  cases e with
  | malformed => exact show trimSpace "unexpected end of JSON input" ≠ "" by decide +kernel
  | mismatch value field type =>
      cases field with
      | none => exact not_blank_append (not_blank_append (not_blank_append hmismatch _) _) _
      | some field =>
          exact not_blank_append (not_blank_append (not_blank_append (not_blank_append
            (not_blank_append hmismatch _) _) _) _) _

/-- The text of an error whose texts `%q` leaves as they are, but for the quotation marks. -/
def dispatchErrorText : DispatchEventError → String :=
  DispatchEventError.text (fun s => "\"" ++ s ++ "\"") jsonErrorText

theorem deadLettered_iff_dispatchMessage :
    ¬ DeadLettered {} fresh
        ((memoryConsumer.enqueueKafkaMessage dispatchErrorText emptyMessage).run memoryStep
          fresh).1 ∧
      DeadLettered {} fresh
        ((memoryConsumer.runItem "worker-1" 0
          (KafkaConsumer.workItem dispatchMessage dispatchedEvent)).run memoryStep fresh).1 := by
  have hparse := parseDispatchEvent_blank emptyMessage_blank
  refine ⟨fun hlost => ?_, ?_⟩
  · have hblank := ((deadLettered_iff memoryClient_reliable {} memoryConsumer
      (fun _ => .error "handler failed") (fun _ => default) jsonErrorText_not_blank fresh
      emptyMessage).1 _ hparse).mp hlost
    exact hblank.1 emptyMessage_blank
  · apply ((@deadLettered_iff _ _ memoryClient_reliable {} memoryConsumer
      (fun _ => .error "handler failed") (fun _ => default) id _ jsonErrorText_not_blank fresh
      dispatchMessage).2 _ _
        "worker-1" 0 parse_dispatchMessage rfl).mpr
    constructor
    · decide +kernel
    · decide +kernel

/-- A message without a value is lost: it is no dispatch event, and no dead letter. -/
theorem empty_value_not_deadLettered :
    Reliable memoryClient ∧
      parseDispatchEvent emptyMessage.value = .error (.unmarshal .malformed) ∧
      ¬ DeadLettered {} fresh
        ((memoryConsumer.enqueueKafkaMessage dispatchErrorText emptyMessage).run memoryStep
          fresh).1 := by
  have hparse := parseDispatchEvent_blank emptyMessage_blank
  refine ⟨memoryClient_reliable, hparse, ?_⟩
  rw [memoryStep, run_enqueue_error _ _ _ _ _ hparse, ← deadLettered_count]
  intro hlost
  have hvalid := (deadLettered_error_iff memoryClient_reliable {} {} _ _ _ _ _ _).mp hlost
  exact (DeadLetterEvent.validate_eq_ok_iff.mp hvalid).2.1 emptyMessage_blank

end

end KernelQ.Worker
