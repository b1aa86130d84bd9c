import KernelQ.Foundation.Threads
import KernelQ.Worker.KafkaConsumer
import Mathlib.Data.List.Nodup
import Mathlib.Data.List.Perm.Subperm

/-!
# Every message is accounted for

The poll goroutine and the workers of the pool, in any interleaving. A goroutine that
has ended has settled its accounts (`Settled`), whatever the handler, the broker and
the controller of the backpressure answered; the work channel loses nothing and
doubles nothing. When `Run` has returned, all workers have ended, and the accounts of
all goroutines add up.
-/

namespace KernelQ.Worker

open KernelQ.Foundation

namespace QueueAccounting

abbrev Event := Prog.Event ConsumerOp.Ans

/-! ## What happens -/

def increments (counter : Counter) : Event → Bool
  | ⟨.inc k, _⟩ => k = counter
  | ⟨.incMessagesSeen _, _⟩ => .messagesSeen = counter
  | _ => false

/-- A message is seen that does not parse. -/
def parseFails : Event → Bool
  | ⟨.incMessagesSeen msg, _⟩ => !(parseDispatchEvent msg.value).isOk
  | _ => false

def parses : Event → Bool
  | ⟨.incMessagesSeen msg, _⟩ => (parseDispatchEvent msg.value).isOk
  | _ => false

/-- `Enqueue` succeeds, for a ticket and an item with `P`. -/
def sends (P : ℕ × WorkItem → Bool) : Event → Bool
  | ⟨.enqueue _ item, some ticket⟩ => P (ticket, item)
  | _ => false

/-- The second `Enqueue` fails too. -/
def drops : Event → Bool
  | ⟨.enqueue .retry _, none⟩ => true
  | _ => false

def receives (P : ℕ × WorkItem → Bool) : Event → Bool
  | ⟨.receive, some x⟩ => P x
  | _ => false

/-- The end of the channel. -/
def ends : Event → Bool
  | ⟨.receive, none⟩ => true
  | _ => false

def handles (P : ℕ × WorkItem → Bool) : Event → Bool
  | ⟨.handle ticket item, _⟩ => P (ticket, item)
  | _ => false

def handlerErrors : Event → Bool
  | ⟨.handle _ _, .error _⟩ => true
  | _ => false

/-- The handler returns without an error. -/
def handledOk : Event → Bool
  | ⟨.handle _ _, .ok _⟩ => true
  | _ => false

def starts : Event → Bool
  | ⟨.start, _⟩ => true
  | _ => false

def waits : Event → Bool
  | ⟨.wait, _⟩ => true
  | _ => false

def isDone : Event → Bool
  | ⟨.done, _⟩ => true
  | _ => false

/-- What the poll goroutine may do. -/
def pollSide : Event → Bool
  | ⟨.receive, _⟩ => false
  | ⟨.handle _ _, _⟩ => false
  | ⟨.done, _⟩ => false
  | _ => true

/-- What a worker may do, until it ends. -/
def workerSide : Event → Bool
  | ⟨.start, _⟩ => false
  | ⟨.incMessagesSeen _, _⟩ => false
  | ⟨.enqueue _ _, _⟩ => false
  | ⟨.close, _⟩ => false
  | ⟨.wait, _⟩ => false
  | ⟨.done, _⟩ => false
  | _ => true

/-- No account is touched. -/
def quiet : Event → Bool
  | ⟨.enqueue _ _, _⟩ => false
  | ⟨.receive, some _⟩ => false
  | ⟨.handle _ _, _⟩ => false
  | ⟨.incMessagesSeen _, _⟩ => false
  | ⟨.inc counter, _⟩ =>
      counter = .kafkaErrors || counter = .backpressurePauseEvents ||
        counter = .backpressureResumeEvents
  | _ => true

/-! ## What is polled -/

/-- What `Run` does with a message it has polled, and whether it goes on. -/
inductive Note
  /-- The context is asked for its error. -/
  | context (done : Bool)
  | seen (msg : KafkaMessage)
  /-- The item is sent, or dropped. -/
  | placed (item : WorkItem)

def note? : Event → Option Note
  | ⟨.ctxErr, done⟩ => some (.context done)
  | ⟨.incMessagesSeen msg, _⟩ => some (.seen msg)
  | ⟨.enqueue _ item, some _⟩ => some (.placed item)
  | ⟨.enqueue .retry item, none⟩ => some (.placed item)
  | _ => none

def Note.done? : Note → Option Bool
  | context done => some done
  | _ => none

def Note.message? : Note → Option KafkaMessage
  | seen msg => some msg
  | _ => none

def Note.item? : Note → Option WorkItem
  | placed item => some item
  | _ => none

def notes (h : List Event) : List Note := h.filterMap note?

/-- The messages of the polls, up to where the loop stops: the context is done before or behind
a poll, the broker fails, or there are no more polls. The other list tells whether the context
was done, before and behind each poll; if it is longer or shorter than that, there is no
answer. -/
def takenUp : List PollEvent → List Bool → Option (List KafkaMessage)
  | [], [] => some []
  | _ :: _, [true] => some []
  | _ :: _, [false, true] => some []
  | event :: events, false :: false :: done =>
      match event with
      | .nothing => takenUp events done
      | .message msg => (takenUp events done).map (msg :: ·)
      | .error _ => if done = [] then some [] else none
  | _, _ => none

/-- The item of a message that parses. -/
def workItem? (msg : KafkaMessage) : Option WorkItem :=
  (parseDispatchEvent msg.value).toOption.map (KafkaConsumer.workItem msg)

/-- `polled` are the messages of these polls, up to where the loop stops. Exactly they are seen,
in order, and the items of those that parse are sent or dropped, in order. -/
structure TakesUp (events : List PollEvent) (notes : List Note) (polled : List KafkaMessage) :
    Prop where
  loop : takenUp events (notes.filterMap Note.done?) = some polled
  seen : notes.filterMap Note.message? = polled
  placed : notes.filterMap Note.item? = polled.filterMap workItem?

section

variable (c : KafkaConsumer)

/-- The accounts of a goroutine. -/
structure Settled (h : List Event) : Prop where
  /-- Each item that is received is handled. -/
  handled : ∀ P, h.countP (receives P) = h.countP (handles P)
  processed : h.countP (increments .messagesProcessed) = h.countP handledOk
  errors : h.countP (increments .messageErrors) = h.countP parseFails + h.countP handlerErrors
  seen : h.countP (increments .messagesSeen) = h.countP parseFails + h.countP parses
  parsed : h.countP parses = h.countP (increments .workItemsEnqueued) + h.countP drops
  enqueued : h.countP (increments .workItemsEnqueued) = h.countP (sends fun _ => true)
  full : h.countP drops ≤ h.countP (increments .workQueueFullErrors)
  deadLetters : c.deadLetterProducer = true → h.countP (increments .messageErrors) =
    h.countP (increments .deadLettersPublished) + h.countP (increments .deadLetterPublishErrors)

/-- What `handleProcessingErrorWithWorker` does. -/
inductive ErrorEvents : List Event → Prop
  | noProducer (hnone : c.deadLetterProducer = false) : ErrorEvents [⟨.inc .messageErrors, ()⟩]
  | published (event : DeadLetterEvent) :
      ErrorEvents [⟨.inc .messageErrors, ()⟩, ⟨.publishDeadLetter event, none⟩,
        ⟨.inc .deadLettersPublished, ()⟩]
  | failed (event : DeadLetterEvent) (e : String) :
      ErrorEvents [⟨.inc .messageErrors, ()⟩, ⟨.publishDeadLetter event, some e⟩,
        ⟨.inc .deadLetterPublishErrors, ()⟩]

variable {c} {h h' seg : List Event}

theorem Settled.nil : Settled c [] :=
  ⟨fun _ => rfl, rfl, rfl, rfl, rfl, rfl, le_refl _, fun _ => rfl⟩

theorem Settled.append (hs : Settled c h) (hs' : Settled c h') : Settled c (h ++ h') where
  handled := by
    intro P
    rw [List.countP_append, List.countP_append, hs.handled P, hs'.handled P]
  processed := by
    rw [List.countP_append, List.countP_append, hs.processed, hs'.processed]
  errors := by
    have h₁ := hs.errors
    have h₂ := hs'.errors
    simp only [List.countP_append]
    omega
  seen := by
    have h₁ := hs.seen
    have h₂ := hs'.seen
    simp only [List.countP_append]
    omega
  parsed := by
    have h₁ := hs.parsed
    have h₂ := hs'.parsed
    simp only [List.countP_append]
    omega
  enqueued := by
    rw [List.countP_append, List.countP_append, hs.enqueued, hs'.enqueued]
  full := by
    rw [List.countP_append, List.countP_append]
    exact Nat.add_le_add hs.full hs'.full
  deadLetters := by
    intro hproducer
    have h₁ := hs.deadLetters hproducer
    have h₂ := hs'.deadLetters hproducer
    simp only [List.countP_append]
    omega

theorem Settled.quiet (hs : Settled c h) {e : Event} (he : quiet e = true) :
    Settled c (h ++ [e]) := by
  refine hs.append ?_
  obtain ⟨o, a⟩ := e
  cases o with
  | inc counter =>
      cases counter <;> first
        | exact ⟨fun _ => rfl, rfl, rfl, rfl, rfl, rfl, le_refl _, fun _ => rfl⟩
        | cases he
  | receive =>
      cases a with
      | some x => cases he
      | none => exact ⟨fun _ => rfl, rfl, rfl, rfl, rfl, rfl, le_refl _, fun _ => rfl⟩
  | enqueue attempt item => cases he
  | handle ticket item => cases he
  | incMessagesSeen msg => cases he
  | _ => exact ⟨fun _ => rfl, rfl, rfl, rfl, rfl, rfl, le_refl _, fun _ => rfl⟩

/-- A message that does not parse. -/
theorem Settled.parseFailure (hs : Settled c h) {msg : KafkaMessage} {e : DispatchEventError}
    (hparse : parseDispatchEvent msg.value = .error e) (herror : ErrorEvents c seg) :
    Settled c (h ++ [⟨.incMessagesSeen msg, ()⟩] ++ seg) := by
  rw [List.append_assoc]
  refine hs.append ?_
  have hfails : (parseDispatchEvent msg.value).isOk = false := by
    rw [hparse]
    rfl
  cases herror with
  | noProducer hnone =>
      refine ⟨fun _ => rfl, rfl, ?_, ?_, ?_, rfl, le_refl _, ?_⟩
      all_goals simp [increments, parseFails, parses, handlerErrors, drops, hfails, hnone]
  | published event =>
      refine ⟨fun _ => rfl, rfl, ?_, ?_, ?_, rfl, le_refl _, fun _ => rfl⟩
      all_goals simp [increments, parseFails, parses, handlerErrors, drops, hfails]
  | failed event e =>
      refine ⟨fun _ => rfl, rfl, ?_, ?_, ?_, rfl, le_refl _, fun _ => rfl⟩
      all_goals simp [increments, parseFails, parses, handlerErrors, drops, hfails]

/-- An item whose handler returns an error. -/
theorem Settled.handlerError (hs : Settled c h) {ticket : ℕ} {item : WorkItem} {err : String}
    (herror : ErrorEvents c seg) :
    Settled c (h ++ [⟨.receive, some (ticket, item)⟩] ++ [⟨.handle ticket item, .error err⟩] ++
      seg) := by
  rw [List.append_assoc, List.append_assoc]
  refine hs.append ?_
  cases herror with
  | noProducer hnone =>
      refine ⟨fun _ => rfl, rfl, rfl, rfl, rfl, rfl, le_refl _, ?_⟩
      simp [hnone]
  | published event =>
      exact ⟨fun _ => rfl, rfl, rfl, rfl, rfl, rfl, le_refl _, fun _ => rfl⟩
  | failed event e =>
      exact ⟨fun _ => rfl, rfl, rfl, rfl, rfl, rfl, le_refl _, fun _ => rfl⟩

theorem Settled.handledItem (hs : Settled c h) {ticket : ℕ} {item : WorkItem}
    {result : ExecutionResult} :
    Settled c (h ++ [⟨.receive, some (ticket, item)⟩] ++ [⟨.handle ticket item, .ok result⟩] ++
      [⟨.inc .messagesProcessed, ()⟩]) := by
  rw [List.append_assoc, List.append_assoc]
  exact hs.append ⟨fun _ => rfl, rfl, rfl, rfl, rfl, rfl, le_refl _, fun _ => rfl⟩

section

variable {msg : KafkaMessage} {event : DispatchEvent} {item : WorkItem} {ticket : ℕ}

theorem Settled.sent (hs : Settled c h) (hparse : parseDispatchEvent msg.value = .ok event) :
    Settled c (h ++ [⟨.incMessagesSeen msg, ()⟩] ++ [⟨.enqueue .first item, some ticket⟩] ++
      [⟨.inc .workItemsEnqueued, ()⟩]) := by
  have hparses : (parseDispatchEvent msg.value).isOk = true := by
    rw [hparse]
    rfl
  simp only [List.append_assoc]
  refine hs.append ⟨fun _ => rfl, rfl, ?_, ?_, ?_, rfl, le_refl _, fun _ => rfl⟩
  all_goals simp [increments, parseFails, parses, handlerErrors, drops, hparses]

theorem Settled.sentAgain (hs : Settled c h) (hparse : parseDispatchEvent msg.value = .ok event) :
    Settled c (h ++ [⟨.incMessagesSeen msg, ()⟩] ++ [⟨.enqueue .first item, none⟩] ++
      [⟨.inc .workQueueFullErrors, ()⟩] ++ [⟨.enqueue .retry item, some ticket⟩] ++
      [⟨.inc .workItemsEnqueued, ()⟩]) := by
  have hparses : (parseDispatchEvent msg.value).isOk = true := by
    rw [hparse]
    rfl
  simp only [List.append_assoc]
  refine hs.append ⟨fun _ => rfl, rfl, ?_, ?_, ?_, rfl, Nat.zero_le _, fun _ => rfl⟩
  all_goals simp [increments, parseFails, parses, handlerErrors, drops, hparses]

theorem Settled.dropped (hs : Settled c h) (hparse : parseDispatchEvent msg.value = .ok event) :
    Settled c (h ++ [⟨.incMessagesSeen msg, ()⟩] ++ [⟨.enqueue .first item, none⟩] ++
      [⟨.inc .workQueueFullErrors, ()⟩] ++ [⟨.enqueue .retry item, none⟩]) := by
  have hparses : (parseDispatchEvent msg.value).isOk = true := by
    rw [hparse]
    rfl
  simp only [List.append_assoc]
  refine hs.append ⟨fun _ => rfl, rfl, ?_, ?_, ?_, rfl, le_refl _, fun _ => rfl⟩
  all_goals simp [increments, parseFails, parses, handlerErrors, drops, hparses]

end

/-! ## What the programs do -/

/-- All that has been done is of one side. -/
def Only (side : Event → Bool) (h : List Event) : Prop :=
  ∀ e ∈ h, side e = true

variable {side : Event → Bool}

theorem Only.nil : Only side [] := by
  intro e he
  cases he

theorem Only.snoc (hr : Only side h) {e : Event} (he : side e = true) : Only side (h ++ [e]) := by
  intro e' he'
  rcases List.mem_append.mp he' with he' | he'
  · exact hr e' he'
  · rw [List.mem_singleton.mp he']
    exact he

theorem Only.countP_eq_zero (hr : Only side h) {p : Event → Bool}
    (hp : ∀ e, side e = true → p e = false) : h.countP p = 0 := by
  refine List.countP_eq_zero.mpr ?_
  intro e he hpe
  rw [hp e (hr e he)] at hpe
  cases hpe

/-- The side may do what both do. -/
def Shares (side : Event → Bool) : Prop :=
  ∀ e, pollSide e = true → workerSide e = true → side e = true

/-- The backpressure touches no account. -/
theorem always_backpressure (hside : Shares side) (hr : Only side h) (hs : Settled c h) :
    c.maybeApplyBackpressure.Always (Only side) (fun _ h' => Settled c h') h := by
  unfold KafkaConsumer.maybeApplyBackpressure
  refine .op hr fun depth => .op (hr.snoc (hside _ rfl rfl)) fun _ => ?_
  have hr₁ := (hr.snoc (e := ⟨.queueDepth, depth⟩) (hside _ rfl rfl)).snoc
    (e := ⟨.recordWorkQueueDepth depth, ()⟩) (hside _ rfl rfl)
  have hs₁ := (hs.quiet (e := ⟨.queueDepth, depth⟩) rfl).quiet
    (e := ⟨.recordWorkQueueDepth depth, ()⟩) rfl
  split
  · refine .op hr₁ fun paused => ?_
    have hr₂ := hr₁.snoc (e := ⟨.isPaused, paused⟩) (hside _ rfl rfl)
    have hs₂ := hs₁.quiet (e := ⟨.isPaused, paused⟩) rfl
    split
    · refine .op hr₂ fun e => ?_
      cases e with
      | some e => exact .ret (hr₂.snoc (hside _ rfl rfl)) (hs₂.quiet rfl)
      | none =>
          exact .op (hr₂.snoc (hside _ rfl rfl)) fun _ =>
            .ret ((hr₂.snoc (hside _ rfl rfl)).snoc (hside _ rfl rfl)) ((hs₂.quiet rfl).quiet rfl)
    · refine .op hr₂ fun paused' => ?_
      have hr₃ := hr₂.snoc (e := ⟨.isPaused, paused'⟩) (hside _ rfl rfl)
      have hs₃ := hs₂.quiet (e := ⟨.isPaused, paused'⟩) rfl
      split
      · refine .op hr₃ fun e => ?_
        cases e with
        | some e => exact .ret (hr₃.snoc (hside _ rfl rfl)) (hs₃.quiet rfl)
        | none =>
            exact .op (hr₃.snoc (hside _ rfl rfl)) fun _ =>
              .ret ((hr₃.snoc (hside _ rfl rfl)).snoc (hside _ rfl rfl)) ((hs₃.quiet rfl).quiet rfl)
      · exact .ret hr₃ hs₃
  · exact .ret hr₁ hs₁

theorem always_processingError (hside : Shares side) (hr : Only side h) (msg : KafkaMessage)
    (err workerName : String) :
    (c.handleProcessingErrorWithWorker msg err workerName).Always (Only side)
      (fun _ h' => ∃ seg, ErrorEvents c seg ∧ h' = h ++ seg) h := by
  unfold KafkaConsumer.handleProcessingErrorWithWorker
  refine .op hr fun _ => ?_
  have hr₁ : Only side (h ++ [⟨.inc .messageErrors, ()⟩]) := hr.snoc (hside _ rfl rfl)
  by_cases hproducer : c.deadLetterProducer = true
  · rw [if_pos hproducer]
    refine .op hr₁ fun e => ?_
    have hr₂ := hr₁.snoc (e := ⟨.publishDeadLetter _, e⟩) (hside _ rfl rfl)
    cases e with
    | none =>
        refine .op hr₂ fun _ => .ret (hr₂.snoc (hside _ rfl rfl)) ?_
        rw [List.append_assoc, List.append_assoc]
        exact ⟨_, .published _, rfl⟩
    | some e =>
        refine .op hr₂ fun _ => .ret (hr₂.snoc (hside _ rfl rfl)) ?_
        rw [List.append_assoc, List.append_assoc]
        exact ⟨_, .failed _ e, rfl⟩
  · rw [if_neg hproducer]
    exact .ret hr₁ ⟨_, .noProducer (Bool.not_eq_true _ ▸ hproducer), rfl⟩

theorem pollShares : Shares pollSide := fun _ h _ => h

theorem workerShares : Shares workerSide := fun _ _ h => h

variable {errorText : DispatchEventError → String}

theorem always_countEnqueued (hr : Only pollSide h)
    (hs : Settled c (h ++ [⟨.inc .workItemsEnqueued, ()⟩])) :
    c.countEnqueued.Always (Only pollSide) (fun _ h' => Settled c h') h :=
  .op hr fun _ => always_backpressure pollShares (hr.snoc rfl) hs

/-- **A message settles its account**, however it ends. -/
theorem always_enqueueKafkaMessage (hr : Only pollSide h) (hs : Settled c h) (msg : KafkaMessage) :
    (c.enqueueKafkaMessage errorText msg).Always (Only pollSide) (fun _ h' => Settled c h') h := by
  unfold KafkaConsumer.enqueueKafkaMessage
  refine .op hr fun _ => ?_
  have hr₁ : Only pollSide (h ++ [⟨.incMessagesSeen msg, ()⟩]) := hr.snoc rfl
  cases hparse : parseDispatchEvent msg.value with
  | error e =>
      refine (always_processingError pollShares hr₁ msg (errorText e) workerIdentity).mono ?_
      rintro _ h' _ ⟨seg, herror, rfl⟩
      exact hs.parseFailure hparse herror
  | ok event =>
      refine .op hr₁ fun sent => ?_
      cases sent with
      | some ticket => exact always_countEnqueued (hr₁.snoc rfl) (hs.sent hparse)
      | none =>
          refine .op (hr₁.snoc rfl) fun _ => .op ((hr₁.snoc rfl).snoc rfl) fun sent => ?_
          have hr₂ := ((hr₁.snoc (e := ⟨.enqueue .first (KafkaConsumer.workItem msg event), none⟩)
            rfl).snoc (e := ⟨.inc .workQueueFullErrors, ()⟩) rfl).snoc
            (e := ⟨.enqueue .retry (KafkaConsumer.workItem msg event), sent⟩) rfl
          cases sent with
          | some ticket => exact always_countEnqueued hr₂ (hs.sentAgain hparse)
          | none => exact .ret hr₂ (hs.dropped hparse)

theorem always_pollLoop (events : List PollEvent) :
    ∀ {h : List Event}, Only pollSide h → Settled c h →
      (c.pollLoop errorText events).Always (Only pollSide) (fun _ h' => Settled c h') h := by
  induction events with
  | nil =>
      intro h hr hs
      exact .ret hr hs
  | cons event events ih =>
      intro h hr hs
      refine .op hr fun canceled => ?_
      have hr₁ := hr.snoc (e := ⟨.ctxErr, canceled⟩) rfl
      have hs₁ := hs.quiet (e := ⟨.ctxErr, canceled⟩) rfl
      cases canceled with
      | true => exact .ret hr₁ hs₁
      | false =>
          refine .bind ((always_backpressure pollShares hr₁ hs₁).mono ?_)
          intro _ h₂ hr₂ hs₂
          refine .op hr₂ fun canceled => ?_
          have hr₃ := hr₂.snoc (e := ⟨.ctxErr, canceled⟩) rfl
          have hs₃ := hs₂.quiet (e := ⟨.ctxErr, canceled⟩) rfl
          cases canceled with
          | true => exact .ret hr₃ hs₃
          | false =>
              cases event with
              | nothing => exact ih hr₃ hs₃
              | message msg =>
                  refine .bind ((always_enqueueKafkaMessage hr₃ hs₃ msg).mono ?_)
                  intro _ h₄ hr₄ hs₄
                  exact ih hr₄ hs₄
              | error message =>
                  exact .op hr₃ fun _ => .ret (hr₃.snoc rfl) (hs₃.quiet rfl)

/-! ## What the poll loop takes up -/

theorem notes_snoc {e : Event} {n : Note} (he : note? e = some n) :
    notes (h ++ [e]) = notes h ++ [n] := by
  rw [notes, List.filterMap_append, List.filterMap_cons_some he]
  rfl

theorem notes_snoc_none {e : Event} (he : note? e = none) : notes (h ++ [e]) = notes h := by
  rw [notes, List.filterMap_append, List.filterMap_cons_none he]
  exact List.append_nil _

theorem notes_backpressure : c.maybeApplyBackpressure.Always (fun _ => True)
    (fun _ h' => notes h' = notes h) h := by
  unfold KafkaConsumer.maybeApplyBackpressure
  refine .op trivial fun depth => .op trivial fun _ => ?_
  have h₁ : notes (h ++ [⟨.queueDepth, depth⟩] ++ [⟨.recordWorkQueueDepth depth, ()⟩]) =
      notes h := (notes_snoc_none rfl).trans (notes_snoc_none rfl)
  split
  · refine .op trivial fun paused => ?_
    have h₂ := (notes_snoc_none (e := ⟨.isPaused, paused⟩) rfl).trans h₁
    split
    · refine .op trivial fun e => ?_
      cases e with
      | some e => exact .ret trivial ((notes_snoc_none rfl).trans h₂)
      | none =>
          exact .op trivial fun _ => .ret trivial
            ((notes_snoc_none rfl).trans ((notes_snoc_none rfl).trans h₂))
    · refine .op trivial fun paused' => ?_
      have h₃ := (notes_snoc_none (e := ⟨.isPaused, paused'⟩) rfl).trans h₂
      split
      · refine .op trivial fun e => ?_
        cases e with
        | some e => exact .ret trivial ((notes_snoc_none rfl).trans h₃)
        | none =>
            exact .op trivial fun _ => .ret trivial
              ((notes_snoc_none rfl).trans ((notes_snoc_none rfl).trans h₃))
      · exact .ret trivial h₃
  · exact .ret trivial h₁

theorem notes_processingError (msg : KafkaMessage) (err workerName : String) :
    (c.handleProcessingErrorWithWorker msg err workerName).Always (fun _ => True)
      (fun _ h' => notes h' = notes h) h := by
  unfold KafkaConsumer.handleProcessingErrorWithWorker
  refine .op trivial fun _ => ?_
  have h₁ : notes (h ++ [⟨.inc .messageErrors, ()⟩]) = notes h := notes_snoc_none rfl
  split
  · refine .op trivial fun e => ?_
    cases e with
    | none =>
        exact .op trivial fun _ => .ret trivial
          ((notes_snoc_none rfl).trans ((notes_snoc_none rfl).trans h₁))
    | some e =>
        exact .op trivial fun _ => .ret trivial
          ((notes_snoc_none rfl).trans ((notes_snoc_none rfl).trans h₁))
  · exact .ret trivial h₁

theorem notes_countEnqueued :
    c.countEnqueued.Always (fun _ => True) (fun _ h' => notes h' = notes h) h := by
  refine .op trivial fun _ => notes_backpressure.mono ?_
  intro _ h' _ hnotes
  exact hnotes.trans (notes_snoc_none rfl)

/-- **A message is seen**, and if it parses, its item is placed. -/
theorem notes_enqueueKafkaMessage (msg : KafkaMessage) :
    (c.enqueueKafkaMessage errorText msg).Always (fun _ => True) (fun _ h' =>
      notes h' = notes h ++ .seen msg :: (workItem? msg).toList.map .placed) h := by
  unfold KafkaConsumer.enqueueKafkaMessage
  refine .op trivial fun _ => ?_
  have h₁ : notes (h ++ [⟨.incMessagesSeen msg, ()⟩]) = notes h ++ [.seen msg] := notes_snoc rfl
  rw [workItem?]
  cases hparse : parseDispatchEvent msg.value with
  | error e =>
      refine (notes_processingError msg (errorText e) workerIdentity).mono ?_
      intro _ h' _ hnotes
      exact hnotes.trans h₁
  | ok event =>
      have hplaced : ∀ {h' : List Event} {e : Event}, notes h' = notes h ++ [.seen msg] →
          note? e = some (.placed (KafkaConsumer.workItem msg event)) →
          notes (h' ++ [e]) =
            notes h ++ [.seen msg, .placed (KafkaConsumer.workItem msg event)] := by
        intro h' e hnotes he
        rw [notes_snoc he, hnotes, List.append_assoc]
        rfl
      refine .op trivial fun sent => ?_
      cases sent with
      | some ticket =>
          refine notes_countEnqueued.mono ?_
          intro _ h' _ hnotes
          exact hnotes.trans (hplaced h₁ rfl)
      | none =>
          refine .op trivial fun _ => .op trivial fun sent => ?_
          have h₂ := (notes_snoc_none (e := ⟨.inc .workQueueFullErrors, ()⟩) rfl).trans
            ((notes_snoc_none
              (e := ⟨.enqueue .first (KafkaConsumer.workItem msg event), none⟩) rfl).trans h₁)
          cases sent with
          | some ticket =>
              refine notes_countEnqueued.mono ?_
              intro _ h' _ hnotes
              exact hnotes.trans (hplaced h₂ rfl)
          | none => exact .ret trivial (hplaced h₂ rfl)

theorem takenUp_nothing (events : List PollEvent) (done : List Bool) :
    takenUp (.nothing :: events) (false :: false :: done) = takenUp events done := by
  rw [takenUp]

theorem takenUp_message (msg : KafkaMessage) (events : List PollEvent) (done : List Bool) :
    takenUp (.message msg :: events) (false :: false :: done) =
      (takenUp events done).map (msg :: ·) := by
  rw [takenUp]

theorem TakesUp.message {events : List PollEvent} {ns : List Note} {polled : List KafkaMessage}
    (htakes : TakesUp events ns polled) (msg : KafkaMessage) :
    TakesUp (.message msg :: events) (.context false :: .context false :: .seen msg ::
      ((workItem? msg).toList.map .placed ++ ns)) (msg :: polled) := by
  obtain ⟨hpolled, hseen, hplaced⟩ := htakes
  cases hitem : workItem? msg with
  | none =>
      refine ⟨?_, ?_, ?_⟩
      · exact (takenUp_message msg events (ns.filterMap Note.done?)).trans (by rw [hpolled]; rfl)
      · show msg :: ns.filterMap Note.message? = _
        rw [hseen]
      · show ns.filterMap Note.item? = _
        rw [hplaced, List.filterMap_cons_none hitem]
  | some item =>
      refine ⟨?_, ?_, ?_⟩
      · exact (takenUp_message msg events (ns.filterMap Note.done?)).trans (by rw [hpolled]; rfl)
      · show msg :: ns.filterMap Note.message? = _
        rw [hseen]
      · show item :: ns.filterMap Note.item? = _
        rw [hplaced, List.filterMap_cons_some hitem]

/-- **The loop takes up what it polls**, until it stops. -/
theorem notes_pollLoop (events : List PollEvent) : ∀ {h : List Event},
    (c.pollLoop errorText events).Always (fun _ => True) (fun _ h' =>
      ∃ ns polled, notes h' = notes h ++ ns ∧ TakesUp events ns polled) h := by
  induction events with
  | nil =>
      intro h
      exact .ret trivial ⟨[], [], (List.append_nil _).symm, rfl, rfl, rfl⟩
  | cons event events ih =>
      intro h
      refine .op trivial fun canceled => ?_
      have h₁ : notes (h ++ [⟨.ctxErr, canceled⟩]) = notes h ++ [.context canceled] :=
        notes_snoc rfl
      cases canceled with
      | true => exact .ret trivial ⟨_, [], h₁, rfl, rfl, rfl⟩
      | false =>
          refine .bind (notes_backpressure.mono ?_)
          intro _ h₂ _ hnotes
          rw [h₁] at hnotes
          refine .op trivial fun canceled => ?_
          have h₃ : notes (h₂ ++ [⟨.ctxErr, canceled⟩]) =
              notes h ++ [.context false, .context canceled] := by
            rw [notes_snoc rfl, hnotes, List.append_assoc]
            rfl
          cases canceled with
          | true => exact .ret trivial ⟨_, [], h₃, by cases event <;> rfl, rfl, rfl⟩
          | false =>
              cases event with
              | nothing =>
                  refine ih.mono ?_
                  rintro _ h' _ ⟨ns, polled, hns, htakes⟩
                  refine ⟨.context false :: .context false :: ns, polled, ?_,
                    (takenUp_nothing events _).trans htakes.loop, htakes.seen, htakes.placed⟩
                  rw [hns, h₃, List.append_assoc]
                  rfl
              | message msg =>
                  refine .bind ((notes_enqueueKafkaMessage msg).mono ?_)
                  intro _ h₄ _ h₄notes
                  refine ih.mono ?_
                  rintro _ h' _ ⟨ns, polled, hns, htakes⟩
                  refine ⟨_, _, ?_, htakes.message msg⟩
                  rw [hns, h₄notes, h₃, List.append_assoc, List.append_assoc]
                  rfl
              | error message =>
                  refine .op trivial fun _ => .ret trivial ?_
                  exact ⟨_, [], (notes_snoc_none rfl).trans h₃, rfl, rfl, rfl⟩

/-- **`Run` takes up what it polls**, if it gets to its loop. -/
theorem notes_run (pollTimeoutMs : ℤ) (events : List PollEvent) :
    (c.run errorText pollTimeoutMs events).Always (fun _ => True) (fun _ h' =>
      0 < pollTimeoutMs → c.runnerHandler = true →
        ∃ polled, TakesUp events (notes h') polled) [] := by
  unfold KafkaConsumer.run
  split
  · rename_i htimeout
    exact .ret trivial fun hpos _ => absurd hpos (not_lt.mpr htimeout)
  split
  · refine .op trivial fun _ => .op trivial fun _ => .bind ((notes_pollLoop events).mono ?_)
    rintro result h₂ _ ⟨ns, polled, hns, htakes⟩
    refine .bind (.op trivial fun depth => .op trivial fun _ => .op trivial fun _ =>
      .op trivial fun _ => .ret trivial (.ret trivial ?_))
    intro _ _
    refine ⟨polled, ?_⟩
    rw [notes_snoc_none rfl, notes_snoc_none rfl, notes_snoc_none rfl, notes_snoc_none rfl, hns]
    exact htakes
  · rename_i hhandler
    exact .ret trivial fun _ hset => absurd hset hhandler

/-- `Run` returns with its accounts settled. It has done nothing, or it has waited for
the workers. -/
def RunEnds (c : KafkaConsumer) (h : List Event) : Prop :=
  Settled c h ∧ (h = [] ∨ 0 < h.countP waits)

theorem always_run (pollTimeoutMs : ℤ) (events : List PollEvent) :
    (c.run errorText pollTimeoutMs events).Always (Only pollSide) (fun _ h' => RunEnds c h') [] := by
  have hnot : RunEnds c [] := ⟨.nil, .inl rfl⟩
  unfold KafkaConsumer.run
  split
  · exact .ret .nil hnot
  split
  · have hr₀ : Only pollSide [⟨.recordWorkQueueCapacity c.pool.queueCapacity, ()⟩] :=
      Only.nil.snoc rfl
    have hr₁ : Only pollSide [⟨.recordWorkQueueCapacity c.pool.queueCapacity, ()⟩,
        ⟨.start, ()⟩] := hr₀.snoc rfl
    have hs₁ : Settled c [⟨.recordWorkQueueCapacity c.pool.queueCapacity, ()⟩, ⟨.start, ()⟩] :=
      (Settled.nil.quiet (e := ⟨.recordWorkQueueCapacity c.pool.queueCapacity, ()⟩) rfl).quiet
        (e := ⟨.start, ()⟩) rfl
    refine .op .nil fun _ => .op hr₀ fun _ => .bind ((always_pollLoop events hr₁ hs₁).mono ?_)
    intro result h₂ hr₂ hs₂
    refine .bind (.op hr₂ fun depth => ?_)
    have hr₃ := hr₂.snoc (e := ⟨.queueDepth, depth⟩) rfl
    have hs₃ := hs₂.quiet (e := ⟨.queueDepth, depth⟩) rfl
    refine .op hr₃ fun _ => .op (hr₃.snoc rfl) fun _ => .op ((hr₃.snoc rfl).snoc rfl) fun _ => ?_
    have hr₄ := ((hr₃.snoc (e := ⟨.recordWorkQueueDepth depth, ()⟩) rfl).snoc
      (e := ⟨.close, ()⟩) rfl).snoc (e := ⟨.wait, ()⟩) rfl
    have hs₄ := ((hs₃.quiet (e := ⟨.recordWorkQueueDepth depth, ()⟩) rfl).quiet
      (e := ⟨.close, ()⟩) rfl).quiet (e := ⟨.wait, ()⟩) rfl
    refine .ret hr₄ (.ret hr₄ ⟨hs₄, .inr ?_⟩)
    exact List.countP_pos_iff.mpr ⟨⟨.wait, ()⟩, by simp, rfl⟩
  · exact .ret .nil hnot

/-- A worker is running, or it has found the end of the channel, with its accounts
settled. -/
inductive WorkerSound (c : KafkaConsumer) : List Event → Prop
  | running {h : List Event} (honly : Only workerSide h) : WorkerSound c h
  | ended {h : List Event} (honly : Only workerSide h) (hs : Settled c h)
      (hends : 0 < h.countP ends) : WorkerSound c (h ++ [⟨.done, ()⟩])

theorem always_runWorker (workerID : String) (items : ℕ) :
    ∀ {h : List Event}, Only workerSide h → Settled c h →
      (c.runWorker workerID items).Always (WorkerSound c) (fun _ _ => True) h := by
  induction items with
  | zero =>
      intro h hr _
      exact .ret (.running hr) trivial
  | succ items ih =>
      intro h hr hs
      refine .op (.running hr) fun received => ?_
      have hr₁ := hr.snoc (e := ⟨.receive, received⟩) rfl
      cases received with
      | none =>
          refine .op (.running hr₁) fun _ => .ret (.ended hr₁ (hs.quiet rfl) ?_) trivial
          exact List.countP_pos_iff.mpr ⟨⟨.receive, none⟩, by simp, rfl⟩
      | some x =>
          obtain ⟨ticket, item⟩ := x
          refine .bind (.op (.running hr₁) fun answer => ?_)
          have hr₂ := hr₁.snoc (e := ⟨.handle ticket item, answer⟩) rfl
          cases answer with
          | error err =>
              refine ((always_processingError workerShares hr₂ _ err _).mono ?_).weaken
                fun _ => .running
              rintro _ h' hr' ⟨seg, herror, rfl⟩
              exact ih hr' (hs.handlerError herror)
          | ok result =>
              refine .op (.running hr₂) fun _ => ?_
              have hr₃ := hr₂.snoc (e := ⟨.inc .messagesProcessed, ()⟩) rfl
              refine ((always_backpressure workerShares hr₃ hs.handledItem).mono ?_).weaken
                fun _ => .running
              intro _ h' hr' hs'
              exact ih hr' hs'

/-! ## The goroutines together -/

inductive Call
  /-- `Run`, on what its polls return. -/
  | run (pollTimeoutMs : ℤ) (events : List PollEvent)
  /-- The goroutine of a worker, up to a number of items. -/
  | work (worker : ℕ) (items : ℕ)

/-- The worker whose goroutine it is. -/
def Call.worker : Call → Option ℕ
  | run _ _ => none
  | work worker _ => some worker

inductive Returned
  | ran (result : Option RunError)
  | worked (atEnd : Bool)

def program (c : KafkaConsumer) (errorText : DispatchEventError → String) :
    Call → Prog ConsumerOp.Ans Returned
  | .run pollTimeoutMs events =>
      (c.run errorText pollTimeoutMs events).bind fun r => .ret (.ran r)
  | .work worker items =>
      (c.runWorker (KafkaConsumer.workerID worker) items).bind fun b => .ret (.worked b)

structure Shared where
  /-- The work channel: tickets and items. -/
  queue : List (ℕ × WorkItem) := []
  nextTicket : ℕ := 0
  closed : Bool := false
  started : Bool := false
  /-- The calls of `wg.Done`. -/
  finished : ℕ := 0
  stats : Counter → ℕ := fun _ => 0
  workQueueCapacity : ℕ := 0
  workQueueDepth : ℕ := 0

def Shared.inc (s : Shared) (counter : Counter) : Shared :=
  { s with stats := fun k => s.stats k + (decide (counter = k)).toNat }

/-- The Go runtime, and whatever the surroundings answer. A step that is not possible
waits. -/
inductive Responds (pool : WorkerPool) : Shared → Event → Shared → Prop
  | ctxErr (s : Shared) (a : Bool) : Responds pool s ⟨.ctxErr, a⟩ s
  | start (s : Shared) : Responds pool s ⟨.start, ()⟩ { s with started := true }
  | sent (s : Shared) (attempt : Attempt) (item : WorkItem) (hopen : s.closed = false)
      (hroom : s.queue.length < pool.queueCapacity) :
      Responds pool s ⟨.enqueue attempt item, some s.nextTicket⟩
        { s with queue := s.queue ++ [(s.nextTicket, item)], nextTicket := s.nextTicket + 1 }
  | full (s : Shared) (attempt : Attempt) (item : WorkItem) (hopen : s.closed = false)
      (hfull : pool.queueCapacity ≤ s.queue.length) :
      Responds pool s ⟨.enqueue attempt item, none⟩ s
  | received (s : Shared) (x : ℕ × WorkItem) (queue : List (ℕ × WorkItem))
      (hqueue : s.queue = x :: queue) :
      Responds pool s ⟨.receive, some x⟩ { s with queue }
  | ended (s : Shared) (hclosed : s.closed = true) (hempty : s.queue = []) :
      Responds pool s ⟨.receive, none⟩ s
  | done (s : Shared) : Responds pool s ⟨.done, ()⟩ { s with finished := s.finished + 1 }
  | close (s : Shared) (hopen : s.closed = false) :
      Responds pool s ⟨.close, ()⟩ { s with closed := true }
  | wait (s : Shared) (hfinished : s.finished = pool.workerCount) :
      Responds pool s ⟨.wait, ()⟩ s
  | queueDepth (s : Shared) : Responds pool s ⟨.queueDepth, s.queue.length⟩ s
  | handle (s : Shared) (ticket : ℕ) (item : WorkItem) (a : Except String ExecutionResult) :
      Responds pool s ⟨.handle ticket item, a⟩ s
  | publishDeadLetter (s : Shared) (event : DeadLetterEvent) (a : Option String) :
      Responds pool s ⟨.publishDeadLetter event, a⟩ s
  | isPaused (s : Shared) (a : Bool) : Responds pool s ⟨.isPaused, a⟩ s
  | pause (s : Shared) (a : Option String) : Responds pool s ⟨.pause, a⟩ s
  | resume (s : Shared) (a : Option String) : Responds pool s ⟨.resume, a⟩ s
  | incMessagesSeen (s : Shared) (msg : KafkaMessage) :
      Responds pool s ⟨.incMessagesSeen msg, ()⟩ (s.inc .messagesSeen)
  | inc (s : Shared) (counter : Counter) : Responds pool s ⟨.inc counter, ()⟩ (s.inc counter)
  | recordWorkQueueCapacity (s : Shared) (n : ℕ) :
      Responds pool s ⟨.recordWorkQueueCapacity n, ()⟩ { s with workQueueCapacity := n }
  | recordWorkQueueDepth (s : Shared) (n : ℕ) :
      Responds pool s ⟨.recordWorkQueueDepth n, ()⟩ { s with workQueueDepth := n }

abbrev Goroutines := Pool Shared Call ConsumerOp.Ans Returned

/-- `Run` is called once, and `Start` starts each worker once. -/
def MayCall (pool : WorkerPool) (s : Goroutines) : Call → Prop
  | .run _ _ => s.calls = []
  | .work worker _ => s.shared.started = true ∧ worker < pool.workerCount ∧
      worker ∉ s.calls.filterMap Call.worker

instance (pool : WorkerPool) (s : Goroutines) (call : Call) : Decidable (MayCall pool s call) :=
  match call with
  | .run _ _ => inferInstanceAs (Decidable (s.calls = []))
  | .work worker _ => inferInstanceAs (Decidable (s.shared.started = true ∧
      worker < pool.workerCount ∧ worker ∉ s.calls.filterMap Call.worker))

/-- Any polls, in any interleaving of the goroutines. -/
def Reachable (c : KafkaConsumer) (errorText : DispatchEventError → String) : Goroutines → Prop :=
  Pool.Reachable (program c errorText) (MayCall c.pool) (Responds c.pool) {}

/-- `Run`, and with it `Shutdown`, has returned. -/
def RunReturned (s : Goroutines) : Prop :=
  ∃ t ∈ s.threads, t.call.worker = none ∧ ∃ a, t.rest = .ret a

instance (s : Goroutines) : Decidable (RunReturned s) :=
  inferInstanceAs (Decidable (∃ t ∈ s.threads, t.call.worker = none ∧ ∃ a, t.rest = .ret a))

/-- `Enqueue` has succeeded for the item, which got the ticket. -/
def Sent (s : Goroutines) (ticket : ℕ) (item : WorkItem) : Prop :=
  ∃ t ∈ s.threads, ∃ attempt, ⟨.enqueue attempt item, some ticket⟩ ∈ t.history

/-- All messages are accounted for. -/
structure Balanced (c : KafkaConsumer) (s : Goroutines) : Prop where
  /-- A ticket stands for one item. -/
  sent_once : ∀ ticket, s.count (fun _ => sends fun x => x.1 = ticket) ≤ 1
  /-- What was sent was handled exactly once. -/
  handled_once : ∀ ticket item, Sent s ticket item →
    s.count (fun _ => handles fun x => x.1 = ticket) = 1
  /-- What was handled was handled by a worker, and had been sent. -/
  handled_sent : ∀ t ∈ s.threads, ∀ ticket item a, ⟨.handle ticket item, a⟩ ∈ t.history →
    (∃ worker, t.call.worker = some worker) ∧ Sent s ticket item
  seen : s.shared.stats .messagesSeen =
    s.count (fun _ => parseFails) + s.shared.stats .workItemsEnqueued + s.count (fun _ => drops)
  enqueued : s.shared.stats .workItemsEnqueued =
    s.shared.stats .messagesProcessed + s.count (fun _ => handlerErrors)
  drops_le : s.count (fun _ => drops) ≤ s.shared.stats .workQueueFullErrors
  errors : s.shared.stats .messageErrors =
    s.count (fun _ => parseFails) + s.count (fun _ => handlerErrors)
  deadLetters : c.deadLetterProducer = true → s.shared.stats .messageErrors =
    s.shared.stats .deadLettersPublished + s.shared.stats .deadLetterPublishErrors
  /-- The messages seen are those that were polled, up to where the loop stops, and those that
  fail to parse are the ones that do not parse. -/
  polled : ∀ t ∈ s.threads, ∀ pollTimeoutMs events, t.call = .run pollTimeoutMs events →
    0 < pollTimeoutMs → c.runnerHandler = true →
    ∃ polled, TakesUp events (notes t.history) polled ∧
      s.shared.stats .messagesSeen = polled.length ∧
      s.count (fun _ => parseFails) =
        polled.countP fun msg => !(parseDispatchEvent msg.value).isOk

/-- The queue is never deeper than its capacity, and when `Run` has returned, all
messages are accounted for. -/
structure Accounted (c : KafkaConsumer) (s : Goroutines) : Prop where
  depth_le : s.shared.queue.length ≤ c.pool.queueCapacity
  balanced : RunReturned s → Balanced c s

/-! ## One goroutine -/

def Sound (c : KafkaConsumer) : Call → List Event → Prop
  | .run _ _, h => Only pollSide h
  | .work _ _, h => WorkerSound c h

def Ends (c : KafkaConsumer) : Call → List Event → Prop
  | .run _ _, h => RunEnds c h
  | .work _ _, _ => True

theorem always_program (call : Call) :
    (program c errorText call).Always (Sound c call) (fun _ h => Ends c call h) [] := by
  cases call with
  | run pollTimeoutMs events =>
      refine .bind ((always_run pollTimeoutMs events).mono ?_)
      intro r h hsound hends
      exact .ret hsound hends
  | work worker items =>
      refine .bind ((always_runWorker _ items .nil .nil).mono ?_)
      intro b h hsound _
      exact .ret hsound trivial

theorem Only.isDone_eq_zero (hr : Only side h) (hside : side ⟨.done, ()⟩ = false) :
    h.countP isDone = 0 := by
  refine hr.countP_eq_zero ?_
  rintro ⟨o, a⟩ he
  cases o with
  | done =>
      cases a
      rw [hside] at he
      cases he
  | _ => rfl

theorem Sound.isDone_le {call : Call} (hsound : Sound c call h) :
    h.countP isDone ≤ (call.worker.isSome).toNat := by
  cases call with
  | run pollTimeoutMs events =>
      rw [Only.isDone_eq_zero hsound rfl]
      exact Nat.zero_le _
  | work worker items =>
      change WorkerSound c h at hsound
      cases hsound with
      | running honly =>
          rw [honly.isDone_eq_zero rfl]
          exact Nat.zero_le _
      | ended honly hs hends =>
          rw [List.countP_append, honly.isDone_eq_zero rfl]
          exact le_refl _

/-- A worker starts no workers. -/
theorem WorkerSound.not_starts (hsound : WorkerSound c h) : h.countP starts = 0 := by
  have hside : ∀ e, workerSide e = true → starts e = false := by
    rintro ⟨o, a⟩ he
    cases o with
    | start => cases he
    | _ => rfl
  cases hsound with
  | running honly => exact honly.countP_eq_zero hside
  | ended honly hs hends =>
      rw [List.countP_append, honly.countP_eq_zero hside]
      rfl

/-- A worker that is done has settled its accounts. -/
theorem Sound.settled_of_isDone {call : Call} (hsound : Sound c call h)
    (hdone : 0 < h.countP isDone) : Settled c h ∧ 0 < h.countP ends := by
  cases call with
  | run pollTimeoutMs events =>
      have hle := @Sound.isDone_le c h (.run pollTimeoutMs events) hsound
      exact absurd hdone (Nat.not_lt.mpr hle)
  | work worker items =>
      change WorkerSound c h at hsound
      cases hsound with
      | running honly =>
          rw [honly.isDone_eq_zero rfl] at hdone
          exact absurd hdone (Nat.lt_irrefl 0)
      | ended honly hs hends =>
          refine ⟨hs.quiet rfl, ?_⟩
          rw [List.countP_append]
          exact Nat.add_pos_left hends _

/-! ## All goroutines -/

section

variable {s : Goroutines}

theorem Reachable.thread (h : Reachable c errorText s)
    {t : Thread Call ConsumerOp.Ans Returned} (ht : t ∈ s.threads) :
    Sound c t.call t.history ∧ ∀ a, t.rest = .ret a → Ends c t.call t.history :=
  h.always always_program ht

theorem Reachable.depth_le (h : Reachable c errorText s) :
    s.shared.queue.length ≤ c.pool.queueCapacity := by
  refine Pool.Reachable.invariant h (Q := fun s => s.queue.length ≤ c.pool.queueCapacity)
    (Nat.zero_le _) ?_
  intro x e y hr hle
  cases hr with
  | sent attempt item hopen hroom =>
      show (x.queue ++ _).length ≤ _
      rw [List.length_append]
      exact hroom
  | received entry queue hqueue =>
      rw [hqueue] at hle
      exact Nat.le_of_succ_le hle
  | _ => exact hle

theorem Reachable.counter (h : Reachable c errorText s) (k : Counter) :
    s.shared.stats k = s.count fun _ => increments k := by
  refine Pool.Reachable.counter_eq h (fun s => s.stats k) rfl ?_
  intro x _ e y hr
  cases hr <;> rfl

/-- `Run` comes first and once, and each worker has one goroutine. -/
structure WellCalled (pool : WorkerPool) (calls : List Call) : Prop where
  nodup : (calls.filterMap Call.worker).Nodup
  lt : ∀ worker ∈ calls.filterMap Call.worker, worker < pool.workerCount
  tail : ∀ call ∈ calls.tail, call.worker ≠ none

theorem Reachable.wellCalled (h : Reachable c errorText s) : WellCalled c.pool s.calls := by
  refine Pool.Reachable.calls_invariant h ⟨.nil, by simp, by simp⟩ ?_
  rintro s call hmay ⟨hnodup, hlt, htail⟩
  cases call with
  | run pollTimeoutMs events =>
      -- `Run` may only come while nothing has been called yet
      change s.calls = [] at hmay
      rw [hmay]
      exact ⟨.nil, by simp [Call.worker], by simp⟩
  | work worker items =>
      obtain ⟨-, hworker, hnew⟩ := hmay
      refine ⟨?_, ?_, ?_⟩
      · rw [List.filterMap_append]
        refine List.nodup_append.mpr ⟨hnodup, List.nodup_singleton worker, ?_⟩
        intro x hx y hy
        rw [List.mem_singleton.mp hy]
        rintro rfl
        exact hnew hx
      · intro x hx
        rw [List.filterMap_append] at hx
        rcases List.mem_append.mp hx with hx | hx
        · exact hlt x hx
        · rw [List.mem_singleton.mp hx]
          exact hworker
      · intro call hcall
        cases hcalls : s.calls with
        | nil =>
            rw [hcalls] at hcall
            cases hcall
        | cons first calls =>
            rw [hcalls] at hcall htail
            rcases List.mem_append.mp hcall with hcall | hcall
            · exact htail call hcall
            · rw [List.mem_singleton.mp hcall]
              exact Option.some_ne_none _

/-- There are no more workers than the pool has. -/
theorem WellCalled.workers_le {pool : WorkerPool} {calls : List Call}
    (hw : WellCalled pool calls) :
    (calls.countP fun call => call.worker.isSome) ≤ pool.workerCount := by
  have hsub : (calls.filterMap Call.worker) ⊆ List.range pool.workerCount := by
    intro worker hworker
    exact List.mem_range.mpr (hw.lt worker hworker)
  have hle := (List.Nodup.subperm hw.nodup hsub).length_le
  rw [List.length_range, List.length_filterMap_eq_countP] at hle
  exact hle

theorem WellCalled.eq_of_worker_eq_none {pool : WorkerPool} (hw : WellCalled pool s.calls)
    {t u : Thread Call ConsumerOp.Ans Returned} (ht : t ∈ s.threads) (hu : u ∈ s.threads)
    (hrun : t.call.worker = none) (hrun' : u.call.worker = none) : t = u := by
  obtain ⟨shared, _ | ⟨first, threads⟩⟩ := s
  · cases ht
  have hfirst : ∀ v ∈ first :: threads, v.call.worker = none → v = first := by
    intro v hv hnone
    rcases List.mem_cons.mp hv with hv | hv
    · exact hv
    · exact absurd hnone (hw.tail _ (List.mem_map_of_mem hv))
  rw [hfirst t ht hrun, hfirst u hu hrun']

/-- When `Run` has returned from its loop, it has taken up what was polled. -/
theorem Reachable.takesUp (h : Reachable c errorText s) (hreturned : RunReturned s)
    {t : Thread Call ConsumerOp.Ans Returned} (ht : t ∈ s.threads) {pollTimeoutMs : ℤ}
    {events : List PollEvent} (hcall : t.call = .run pollTimeoutMs events)
    (hpos : 0 < pollTimeoutMs) (hset : c.runnerHandler = true) :
    ∃ polled, TakesUp events (notes t.history) polled := by
  have hprogram : ∀ call, (program c errorText call).Always (fun _ => True)
      (fun _ h' => ∀ pollTimeoutMs events, call = .run pollTimeoutMs events → 0 < pollTimeoutMs →
        c.runnerHandler = true → ∃ polled, TakesUp events (notes h') polled) [] := by
    intro call
    cases call with
    | run pollTimeoutMs' events' =>
        refine .bind ((notes_run pollTimeoutMs' events').mono ?_)
        intro r h' _ htakes
        refine .ret trivial ?_
        rintro _ _ ⟨⟩
        exact htakes
    | work worker items =>
        refine (Prog.Always.trivial _).mono ?_
        rintro _ _ _ _ _ _ ⟨⟩
  obtain ⟨u, hu, hrun, a, ha⟩ := hreturned
  have hsame : t = u := h.wellCalled.eq_of_worker_eq_none ht hu (by rw [hcall]; rfl) hrun
  obtain rfl := hsame
  exact (h.always hprogram ht).2 a ha pollTimeoutMs events hcall hpos hset

/-- What no worker does is done by `Run`. -/
theorem WellCalled.count_eq {pool : WorkerPool} (hw : WellCalled pool s.calls)
    {t : Thread Call ConsumerOp.Ans Returned} (ht : t ∈ s.threads) (hrun : t.call.worker = none)
    {p : Event → Bool}
    (hp : ∀ u ∈ s.threads, u.call.worker ≠ none → u.history.countP p = 0) :
    (s.count fun _ => p) = t.history.countP p := by
  obtain ⟨shared, _ | ⟨first, threads⟩⟩ := s
  · cases ht
  have hnot : ∀ u ∈ threads, u.call.worker ≠ none :=
    fun u hu => hw.tail _ (List.mem_map_of_mem hu)
  obtain rfl : t = first := by
    rcases List.mem_cons.mp ht with ht | ht
    · exact ht
    · exact absurd hrun (hnot t ht)
  have hrest : (threads.map fun u => u.history.countP p).sum = 0 := by
    refine List.sum_eq_zero ?_
    intro n hn
    obtain ⟨u, hu, rfl⟩ := List.mem_map.mp hn
    exact hp u (List.mem_cons_of_mem _ hu) (hnot u hu)
  show t.history.countP p + (threads.map fun u => u.history.countP p).sum = _
  rw [hrest, Nat.add_zero]

/-- The workers have been started by `Run`. -/
theorem Reachable.started (h : Reachable c errorText s) {t : Thread Call ConsumerOp.Ans Returned}
    (ht : t ∈ s.threads) (hworker : t.call.worker ≠ none) :
    ∃ u ∈ s.threads, u.call.worker = none ∧ u.history ≠ [] := by
  have hstarted : s.shared.started = true := by
    refine Pool.Reachable.called h (Q := fun s call => call.worker ≠ none → s.started = true)
      ?_ ?_ t ht hworker
    · intro s call hmay hworker
      cases call with
      | run pollTimeoutMs events => exact absurd rfl hworker
      | work worker items => exact hmay.1
    · intro x e y call hr hstarted hworker
      cases hr with
      | start => rfl
      | _ => exact hstarted hworker
  -- somebody has set the flag, which only `starts` does
  have htaken : (s.shared.started = true → 0 < s.count fun _ => starts) ∧
      ((0 < s.count fun _ _ => false) → 0 < s.count fun _ => starts) := by
    refine Pool.Reachable.taken_by h (fun s => s.started = true) Bool.false_ne_true ?_ ?_
    · intro x _ e y hr hstarted
      cases hr with
      | start => exact .inr rfl
      | _ => exact .inl hstarted
    · intro x _ e y hr hfinds
      cases hfinds
  obtain ⟨u, hu, e, he, hstarts⟩ := Pool.count_pos_iff.mp (htaken.1 hstarted)
  refine ⟨u, hu, ?_, List.ne_nil_of_mem he⟩
  have hsound := (h.thread hu).1
  cases hcall : u.call with
  | run pollTimeoutMs events => rfl
  | work worker items =>
      rw [hcall] at hsound
      exact absurd hstarts (List.countP_eq_zero.mp (WorkerSound.not_starts hsound) e he)

theorem Reachable.finished (h : Reachable c errorText s) :
    s.shared.finished = s.count fun _ => isDone := by
  refine Pool.Reachable.counter_eq h Shared.finished rfl ?_
  intro x _ e y hr
  cases hr <;> rfl

theorem Reachable.workers_finished (h : Reachable c errorText s)
    (hwaits : 0 < s.count fun _ => waits) : c.pool.workerCount ≤ s.shared.finished := by
  refine Pool.Reachable.after h (Q := fun s => c.pool.workerCount ≤ s.finished) ?_ ?_ hwaits
  · intro x _ e y hr hwait
    cases hr with
    | wait hfinished => exact hfinished.ge
    | _ => cases hwait
  · intro x e y hr hle
    cases hr with
    | done => exact Nat.le_succ_of_le hle
    | _ => exact hle

/-- Behind the end of the channel, it is empty and stays empty. -/
theorem Reachable.queue_empty (h : Reachable c errorText s)
    (hends : 0 < s.count fun _ => ends) : s.shared.queue = [] := by
  refine (Pool.Reachable.after h (Q := fun s => s.closed = true ∧ s.queue = []) ?_ ?_ hends).2
  · intro x _ e y hr hend
    cases hr with
    | ended hclosed hempty => exact ⟨hclosed, hempty⟩
    | _ => cases hend
  · rintro x e y hr ⟨hclosed, hempty⟩
    cases hr with
    | sent attempt item hopen hroom =>
        rw [hclosed] at hopen
        cases hopen
    | received entry queue hqueue =>
        rw [hempty] at hqueue
        cases hqueue
    | close => exact ⟨rfl, hempty⟩
    | _ => exact ⟨hclosed, hempty⟩

/-- **The work channel** loses nothing and doubles nothing. -/
theorem Reachable.received (h : Reachable c errorText s) (P : ℕ × WorkItem → Bool) :
    (s.count fun _ => receives P) + s.shared.queue.countP P = s.count fun _ => sends P := by
  refine Pool.Reachable.balance h (fun s => s.queue.countP P) rfl ?_
  intro x _ e y hr
  cases hr with
  | sent attempt item hopen hroom =>
      show (x.queue ++ [(x.nextTicket, item)]).countP P = _
      rw [List.countP_append, List.countP_singleton]
      simp only [sends]
      cases P (x.nextTicket, item) <;> rfl
  | received entry queue hqueue =>
      show queue.countP P + (P entry).toNat = _
      rw [hqueue, List.countP_cons]
      cases P entry <;> rfl
  | _ => rfl

theorem Reachable.sent_once (h : Reachable c errorText s) (ticket : ℕ) :
    (s.count fun _ => sends fun x => x.1 = ticket) ≤ 1 := by
  refine (Pool.Reachable.count_le_one h (fun s => ticket < s.nextTicket) ?_ ?_).1
  · intro x _ e y hr hsends
    cases hr with
    | sent attempt item hopen hroom =>
        obtain rfl := of_decide_eq_true hsends
        exact ⟨Nat.lt_irrefl _, Nat.lt_succ_self _⟩
    | _ => cases hsends
  · intro x e y hr hlt
    cases hr with
    | sent attempt item hopen hroom => exact Nat.lt_succ_of_lt hlt
    | _ => exact hlt

/-- **All goroutines have settled their accounts** when `Run` has returned, and the work
channel is empty. -/
theorem Reachable.settled (h : Reachable c errorText s) (hreturned : RunReturned s) :
    (∀ t ∈ s.threads, Settled c t.history) ∧ s.shared.queue = [] := by
  obtain ⟨t, ht, hrun, a, ha⟩ := hreturned
  have hends : RunEnds c t.history := by
    have hends := (h.thread ht).2 a ha
    cases hcall : t.call with
    | run pollTimeoutMs events =>
        rw [hcall] at hends
        exact hends
    | work worker items =>
        rw [hcall] at hrun
        cases hrun
  obtain ⟨hsettled, hnone | hwaits⟩ := hends
  · -- `Run` has not started the workers
    have hall : ∀ u ∈ s.threads, u.history = [] := by
      intro u hu
      by_cases hworker : u.call.worker = none
      · rw [h.wellCalled.eq_of_worker_eq_none hu ht hworker hrun]
        exact hnone
      · obtain ⟨v, hv, hrun', hstarted⟩ := h.started hu hworker
        rw [h.wellCalled.eq_of_worker_eq_none hv ht hrun' hrun] at hstarted
        exact absurd hnone hstarted
    refine ⟨fun u hu => by rw [hall u hu]; exact .nil, ?_⟩
    have hbalance := h.received fun _ => true
    have hsends : (s.count fun _ => sends fun _ => true) = 0 := by
      by_contra hne
      obtain ⟨u, hu, e, he, -⟩ := Pool.count_pos_iff.mp (Nat.pos_of_ne_zero hne)
      rw [hall u hu] at he
      cases he
    rw [hsends, List.countP_true] at hbalance
    exact List.length_eq_zero_iff.mp (Nat.eq_zero_of_add_eq_zero hbalance).2
  · -- `Run` has waited for all of them
    have hfinished := h.workers_finished (Pool.count_pos_iff.mpr
      ⟨t, ht, List.countP_pos_iff.mp hwaits⟩)
    rw [h.finished] at hfinished
    have hworkers : (s.threads.countP fun t => t.call.worker.isSome) ≤ c.pool.workerCount := by
      have hle := h.wellCalled.workers_le
      rw [Pool.calls, List.countP_map] at hle
      exact hle
    have hdone := Pool.count_eq_one (k := fun call => call.worker.isSome)
      (fun u hu => (h.thread hu).1.isDone_le) (hworkers.trans hfinished)
    constructor
    · intro u hu
      by_cases hworker : u.call.worker = none
      · rw [h.wellCalled.eq_of_worker_eq_none hu ht hworker hrun]
        exact hsettled
      · have hone := hdone u hu (Option.isSome_iff_ne_none.mpr hworker)
        exact ((h.thread hu).1.settled_of_isDone (hone ▸ Nat.one_pos)).1
    · refine h.queue_empty ?_
      obtain ⟨u, hu, e, he, hisDone⟩ :=
        Pool.count_pos_iff.mp (c.pool.workerCount_pos.trans_le hfinished)
      refine Pool.count_pos_iff.mpr ⟨u, hu, ?_⟩
      exact List.countP_pos_iff.mp ((h.thread hu).1.settled_of_isDone
        (List.countP_pos_iff.mpr ⟨e, he, hisDone⟩)).2

/-- The messages seen that do not parse, and those that do. -/
theorem countP_message (h : List Event) :
    h.countP parseFails = ((notes h).filterMap Note.message?).countP
        (fun msg => !(parseDispatchEvent msg.value).isOk) ∧
      h.countP parseFails + h.countP parses = ((notes h).filterMap Note.message?).length := by
  induction h with
  | nil => exact ⟨rfl, rfl⟩
  | cons e h ih =>
      obtain ⟨hfails, hboth⟩ := ih
      by_cases hseen : ∃ msg, e = ⟨.incMessagesSeen msg, ()⟩
      · obtain ⟨msg, rfl⟩ := hseen
        have hnotes : (notes (⟨.incMessagesSeen msg, ()⟩ :: h)).filterMap Note.message? =
            msg :: (notes h).filterMap Note.message? := rfl
        rw [hnotes, List.countP_cons, List.countP_cons, List.countP_cons, List.length_cons]
        simp only [parseFails, parses]
        by_cases hok : (parseDispatchEvent msg.value).isOk = true
        · simp only [hok, Bool.not_true, Bool.false_eq_true, if_false, if_true]
          omega
        · simp only [hok, Bool.not_false, Bool.false_eq_true, if_false, if_true]
          omega
      · obtain ⟨o, a⟩ := e
        cases o with
        | incMessagesSeen msg => exact absurd ⟨msg, rfl⟩ hseen
        | ctxErr => exact ⟨hfails, hboth⟩
        | enqueue attempt item =>
            cases attempt <;> cases a <;> exact ⟨hfails, hboth⟩
        | _ => exact ⟨hfails, hboth⟩

/-- A worker sees no message. -/
theorem WorkerSound.not_sees (hsound : WorkerSound c h) :
    h.countP parseFails = 0 ∧ h.countP parses = 0 := by
  have hside : ∀ e, workerSide e = true → parseFails e = false ∧ parses e = false := by
    rintro ⟨o, a⟩ he
    cases o with
    | incMessagesSeen msg => cases he
    | _ => exact ⟨rfl, rfl⟩
  cases hsound with
  | running honly =>
      exact ⟨honly.countP_eq_zero fun e he => (hside e he).1,
        honly.countP_eq_zero fun e he => (hside e he).2⟩
  | ended honly hs hends =>
      rw [List.countP_append, List.countP_append, honly.countP_eq_zero fun e he => (hside e he).1,
        honly.countP_eq_zero fun e he => (hside e he).2]
      exact ⟨rfl, rfl⟩

theorem sends_mono {P Q : ℕ × WorkItem → Bool} (hPQ : ∀ x, P x = true → Q x = true) {e : Event}
    (hsends : sends P e = true) : sends Q e = true := by
  obtain ⟨o, a⟩ := e
  cases o with
  | enqueue attempt item =>
      cases a with
      | none => cases hsends
      | some ticket => exact hPQ _ hsends
  | _ => cases hsends

/-- The handler returns, with an error or without. -/
theorem countP_handles (h : List Event) :
    h.countP (handles fun _ => true) = h.countP handledOk + h.countP handlerErrors := by
  induction h with
  | nil => rfl
  | cons e h ih =>
      rw [List.countP_cons, List.countP_cons, List.countP_cons, ih]
      obtain ⟨o, a⟩ := e
      cases o with
      | handle ticket item =>
          cases a with
          | error err => exact Nat.add_assoc _ _ _
          | ok result => exact Nat.add_right_comm _ _ _
      | _ => rfl

theorem sent_iff {ticket : ℕ} {item : WorkItem} :
    Sent s ticket item ↔ 0 < s.count fun _ => sends fun x => x = (ticket, item) := by
  rw [Pool.count_pos_iff]
  constructor
  · rintro ⟨t, ht, attempt, he⟩
    exact ⟨t, ht, _, he, decide_eq_true rfl⟩
  · rintro ⟨t, ht, ⟨o, a⟩, he, hsends⟩
    cases o with
    | enqueue attempt item' =>
        cases a with
        | none => cases hsends
        | some ticket' =>
            obtain ⟨rfl, rfl⟩ := Prod.mk.inj (of_decide_eq_true hsends)
            exact ⟨t, ht, attempt, he⟩
    | _ => cases hsends

/-- **Every message is accounted for**, for any messages, any answers of the handler, the
broker and the controller, and any interleaving of the goroutines. -/
theorem messages_accounted (h : Reachable c errorText s) : Accounted c s := by
  refine ⟨h.depth_le, fun hreturned => ?_⟩
  obtain ⟨hsettled, hempty⟩ := h.settled hreturned
  -- what is sent is received, and what is received is handled
  have hhandled : ∀ P, (s.count fun _ => handles P) = s.count fun _ => sends P := by
    intro P
    have hreceived := h.received P
    rw [hempty, List.countP_nil, Nat.add_zero] at hreceived
    rw [← hreceived]
    exact (Pool.count_congr fun t ht => (hsettled t ht).handled P).symm
  have henqueued : s.shared.stats .workItemsEnqueued = s.count fun _ => sends fun _ => true := by
    rw [h.counter]
    exact Pool.count_congr fun t ht => (hsettled t ht).enqueued
  constructor
  case sent_once => exact h.sent_once
  case handled_once =>
    rintro ticket item hsent
    rw [hhandled]
    refine Nat.le_antisymm (h.sent_once ticket) ?_
    refine (sent_iff.mp hsent).trans_le (Pool.count_le fun t _ => ?_)
    refine List.countP_mono_left fun e _ hsends => sends_mono ?_ hsends
    intro x hx
    rw [of_decide_eq_true hx]
    exact decide_eq_true rfl
  case handled_sent =>
    intro t ht ticket item a he
    constructor
    · have hsound := (h.thread ht).1
      cases hcall : t.call with
      | run pollTimeoutMs events =>
          rw [hcall] at hsound
          cases hsound _ he
      | work worker items => exact ⟨worker, rfl⟩
    · rw [sent_iff, ← hhandled]
      exact Pool.count_pos_iff.mpr ⟨t, ht, _, he, decide_eq_true rfl⟩
  case seen =>
    have hparsed : (s.count fun _ => parses) =
        (s.count fun _ => increments .workItemsEnqueued) + s.count fun _ => drops :=
      Pool.count_add fun t ht => (hsettled t ht).parsed
    rw [h.counter, h.counter, Nat.add_assoc, ← hparsed]
    exact Pool.count_add fun t ht => (hsettled t ht).seen
  case enqueued =>
    have hprocessed : (s.count fun _ => increments .messagesProcessed) =
        s.count fun _ => handledOk :=
      Pool.count_congr fun t ht => (hsettled t ht).processed
    rw [henqueued, ← hhandled, h.counter, hprocessed]
    exact Pool.count_add fun t _ => countP_handles t.history
  case drops_le =>
    rw [h.counter]
    exact Pool.count_le fun t ht => (hsettled t ht).full
  case errors =>
    rw [h.counter]
    exact Pool.count_add fun t ht => (hsettled t ht).errors
  case deadLetters =>
    intro hproducer
    rw [h.counter, h.counter, h.counter]
    exact Pool.count_add fun t ht => (hsettled t ht).deadLetters hproducer
  case polled =>
    intro t ht pollTimeoutMs events hcall hpos hset
    have hrun : t.call.worker = none := by
      rw [hcall]
      rfl
    obtain ⟨polled, htakes⟩ := h.takesUp hreturned ht hcall hpos hset
    have hnot : ∀ u ∈ s.threads, u.call.worker ≠ none →
        u.history.countP parseFails = 0 ∧ u.history.countP parses = 0 := by
      intro u hu hworker
      have hsound := (h.thread hu).1
      cases hcall : u.call with
      | run pollTimeoutMs events =>
          rw [hcall] at hworker
          exact absurd rfl hworker
      | work worker items =>
          rw [hcall] at hsound
          exact WorkerSound.not_sees hsound
    obtain ⟨hfails, hboth⟩ := countP_message t.history
    rw [htakes.seen] at hfails hboth
    refine ⟨polled, htakes, ?_, ?_⟩
    · have hseen : (s.count fun _ => increments .messagesSeen) =
          (s.count fun _ => parseFails) + s.count fun _ => parses :=
        Pool.count_add fun t ht => (hsettled t ht).seen
      rw [h.counter, ← hboth, hseen,
        h.wellCalled.count_eq ht hrun fun u hu hworker => (hnot u hu hworker).1,
        h.wellCalled.count_eq ht hrun fun u hu hworker => (hnot u hu hworker).2]
    · rw [← hfails]
      exact h.wellCalled.count_eq ht hrun fun u hu hworker => (hnot u hu hworker).1

end

end

/-! ## A schedule -/

/-- Nothing fails. What is not possible has no answer. -/
def smooth (pool : WorkerPool) (s : Shared) : (o : ConsumerOp) → Option (Shared × o.Ans)
  | .ctxErr => some (s, false)
  | .start => some ({ s with started := true }, ())
  | .enqueue _ item =>
      if s.closed then none
      else if s.queue.length < pool.queueCapacity then
        some ({ s with
          queue := s.queue ++ [(s.nextTicket, item)]
          nextTicket := s.nextTicket + 1 }, some s.nextTicket)
      else some (s, none)
  | .receive =>
      match s.queue with
      | x :: queue => some ({ s with queue }, some x)
      | [] => if s.closed then some (s, none) else none
  | .done => some ({ s with finished := s.finished + 1 }, ())
  | .close => if s.closed then none else some ({ s with closed := true }, ())
  | .wait => if s.finished = pool.workerCount then some (s, ()) else none
  | .queueDepth => some (s, s.queue.length)
  | .handle _ _ => some (s, .ok { status := executionSucceeded })
  | .publishDeadLetter _ => some (s, none)
  | .isPaused => some (s, false)
  | .pause => some (s, none)
  | .resume => some (s, none)
  | .incMessagesSeen _ => some (s.inc .messagesSeen, ())
  | .inc counter => some (s.inc counter, ())
  | .recordWorkQueueCapacity n => some ({ s with workQueueCapacity := n }, ())
  | .recordWorkQueueDepth n => some ({ s with workQueueDepth := n }, ())

theorem responds_smooth (pool : WorkerPool) (s : Shared) (o : ConsumerOp) (r : Shared × o.Ans)
    (hr : smooth pool s o = some r) : Responds pool s ⟨o, r.2⟩ r.1 := by
  cases o with
  | enqueue attempt item =>
      simp only [smooth] at hr
      split at hr
      · cases hr
      rename_i hopen
      split at hr
      · rename_i hroom
        obtain rfl := Option.some.inj hr
        exact .sent s attempt item (Bool.eq_false_iff.mpr hopen) hroom
      · rename_i hroom
        obtain rfl := Option.some.inj hr
        exact .full s attempt item (Bool.eq_false_iff.mpr hopen) (Nat.not_lt.mp hroom)
  | receive =>
      simp only [smooth] at hr
      split at hr
      · rename_i x queue hqueue
        obtain rfl := Option.some.inj hr
        exact .received s x queue hqueue
      · rename_i hempty
        split at hr
        · rename_i hclosed
          obtain rfl := Option.some.inj hr
          exact .ended s hclosed hempty
        · cases hr
  | close =>
      simp only [smooth] at hr
      split at hr
      · cases hr
      · rename_i hopen
        obtain rfl := Option.some.inj hr
        exact .close s (Bool.eq_false_iff.mpr hopen)
  | wait =>
      simp only [smooth] at hr
      split at hr
      · rename_i hfinished
        obtain rfl := Option.some.inj hr
        exact .wait s hfinished
      · cases hr
  | _ =>
      obtain rfl := Option.some.inj hr
      constructor

namespace OneWorker

def consumer : KafkaConsumer := { workerCount := 1, queueCapacity := 1 }

def members : List (String × Json) :=
  [("event_type", .str "job.dispatch"), ("job_id", .str "job"), ("tenant_id", .str "tenant"),
    ("state", .str "dispatched")]

/-- One message that parses, and one that does not. -/
def polled : List PollEvent :=
  [.message { key := .empty, value := (String.ofList ((Json.obj members).render .go)).toUTF8 },
    .message { key := .empty, value := .empty }]

def errorText : DispatchEventError → String := fun _ => ""

def called : Goroutines :=
  ⟨{}, [⟨.run 100 polled, [], program consumer errorText (.run 100 polled)⟩]⟩

/-- `Run` alone, until the work channel is closed. -/
def closed : Option Goroutines :=
  called.turns (smooth consumer.pool) (List.replicate 20 0)

/-- The worker until it ends, and then `Run`. -/
def returned : Option Goroutines :=
  closed.bind fun s =>
    Pool.turns (smooth consumer.pool)
      ⟨s.shared, s.threads ++ [⟨.work 0 2, [], program consumer errorText (.work 0 2)⟩]⟩
      (List.replicate 7 1 ++ [0])

end OneWorker

open OneWorker in
/-- A message that parses and one that does not: both are accounted for. -/
theorem messages_accounted_two : ∃ s, Reachable consumer errorText s ∧ RunReturned s ∧
    s.shared.stats .messagesSeen = 2 ∧ s.shared.stats .messagesProcessed = 1 ∧
    s.shared.stats .messageErrors = 1 ∧ Accounted consumer s := by
  have hanswer := responds_smooth consumer.pool
  have hclosed : (closed.any fun s => MayCall consumer.pool s (.work 0 2)) = true := by
    decide +kernel
  have hreturned : (returned.any fun s => RunReturned s ∧ s.shared.stats .messagesSeen = 2 ∧
      s.shared.stats .messagesProcessed = 1 ∧ s.shared.stats .messageErrors = 1) = true := by
    decide +kernel
  obtain ⟨s, hs, hmay⟩ := (Option.any_eq_true _ _).mp hclosed
  obtain ⟨s', hs', hcounts⟩ := (Option.any_eq_true _ _).mp hreturned
  have hcalled : Reachable consumer errorText called := by
    have hstart : Reachable consumer errorText ⟨{}, []⟩ := .start
    exact hstart.step (.call (Call.run 100 polled) rfl)
  have hrun : Reachable consumer errorText s := Pool.Reachable.turns hanswer hcalled hs
  have hwork : Reachable consumer errorText s' := by
    rw [returned, hs] at hs'
    exact Pool.Reachable.turns hanswer
      (hrun.step (.call (Call.work 0 2) (of_decide_eq_true hmay))) hs'
  obtain ⟨hran, hseen, hprocessed, herrors⟩ := of_decide_eq_true hcounts
  exact ⟨s', hwork, hran, hseen, hprocessed, herrors, messages_accounted hwork⟩

end QueueAccounting

end KernelQ.Worker
