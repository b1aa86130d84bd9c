import KernelQ.Foundation.Programs
import KernelQ.Worker.Handler
import Mathlib

/-!
# The Kafka consumer and its worker pool

`kafka_consumer.go` and `worker_pool.go`, as programs of atomic operations: `Run` on the
poll goroutine, and `runWorker` on each goroutine of the pool. They share the work
channel and the `Stats` behind their mutex. A Go string of message bytes is the bytes.

Both loops are unbounded in Go. Here `Run` gets the events that its polls return, and
finds its context canceled when it has seen them all; a worker gets a bound on the
items it takes, and any bound will do, as long as it lets the worker see the end of
the channel. `errorText` is the text of a parse error.
-/

namespace KernelQ.Worker

open KernelQ.Foundation

structure KafkaMessage where
  key : ByteArray
  value : ByteArray
  headers : List (String × ByteArray) := []
  /-- `TopicPartition.Topic`, which may be `nil`. -/
  topic : Option String := none
  partition : ℤ := 0
  offset : ℤ := 0

def sourceTopicFromMessage (msg : KafkaMessage) : String :=
  match msg.topic with
  | some topic => if topic ≠ "" then topic else "unknown"
  | none => "unknown"

structure WorkItem where
  event : DispatchEvent
  originalKey : ByteArray
  originalValue : ByteArray
  sourceTopic : String
  headers : List (String × ByteArray)
  partition : ℤ
  offset : ℤ
  deriving DecidableEq

structure DeadLetterEvent where
  reason : String
  originalKey : ByteArray
  originalValue : ByteArray
  sourceTopic : String
  worker : String

/-- The event counters of `ConsumerStats`. -/
inductive Counter
  | messagesSeen | messagesProcessed | messageErrors | kafkaErrors | workItemsEnqueued
  | workQueueFullErrors | backpressurePauseEvents | backpressureResumeEvents
  | deadLettersPublished | deadLetterPublishErrors
  deriving DecidableEq

/-- The watermark tests of a policy, on the depth and the capacity of the queue. -/
structure BackpressurePolicy where
  shouldPause : ℕ → ℕ → Bool
  shouldResume : ℕ → ℕ → Bool

def defaultWorkerCount : ℤ := 4

def defaultQueueCapacity : ℤ := 100

structure WorkerPool where
  workerCount : ℕ
  queueCapacity : ℕ
  workerCount_pos : 0 < workerCount
  queueCapacity_pos : 0 < queueCapacity

/-- Counts that are not positive stand for the defaults. -/
def newWorkerPool (workerCount queueCapacity : ℤ) : WorkerPool where
  workerCount := (if workerCount ≤ 0 then defaultWorkerCount else workerCount).toNat
  queueCapacity := (if queueCapacity ≤ 0 then defaultQueueCapacity else queueCapacity).toNat
  workerCount_pos := by
    unfold defaultWorkerCount
    split <;> omega
  queueCapacity_pos := by
    unfold defaultQueueCapacity
    split <;> omega

/-- A field that may be `nil` and that is only called is `true` here where it is set. -/
structure KafkaConsumer where
  runnerHandler : Bool := true
  workerCount : ℤ := 0
  queueCapacity : ℤ := 0
  deadLetterProducer : Bool := false
  backpressurePolicy : Option BackpressurePolicy := none
  pauseResumeController : Bool := false

/-- What `Poll` returns. -/
inductive PollEvent
  | nothing
  | message (msg : KafkaMessage)
  | error (message : String)

inductive RunError
  | pollTimeout (got : ℤ)
  | handlerMissing
  | kafka (message : String)

/-! ## Operations -/

/-- Which of the two calls of `Enqueue` for a message. -/
inductive Attempt
  | first | retry
  deriving DecidableEq

inductive ConsumerOp
  /-- `ctx.Err() != nil`. -/
  | ctxErr
  | start
  /-- `pool.Enqueue`. What is sent gets a ticket; `none` is `ErrWorkerQueueFull`. -/
  | enqueue (attempt : Attempt) (item : WorkItem)
  /-- `range pool.workCh`; `none` is the end of the channel. -/
  | receive
  /-- `pool.wg.Done`. -/
  | done
  | close
  /-- `pool.wg.Wait`. -/
  | wait
  | queueDepth
  /-- `pool.handler.Handle` of the item's event, in the context of its headers. The ticket
  is the item's; the program only hands it on. -/
  | handle (ticket : ℕ) (item : WorkItem)
  | publishDeadLetter (event : DeadLetterEvent)
  | isPaused
  | pause
  | resume
  /-- `incMessagesSeen`, on this message. -/
  | incMessagesSeen (msg : KafkaMessage)
  | inc (counter : Counter)
  | recordWorkQueueCapacity (capacity : ℕ)
  | recordWorkQueueDepth (depth : ℕ)

/-- The answers; an error is its text. -/
@[reducible] def ConsumerOp.Ans : ConsumerOp → Type
  | ctxErr => Bool
  | start => Unit
  | enqueue _ _ => Option ℕ
  | receive => Option (ℕ × WorkItem)
  | done => Unit
  | close => Unit
  | wait => Unit
  | queueDepth => ℕ
  | handle _ _ => Except String ExecutionResult
  | publishDeadLetter _ => Option String
  | isPaused => Bool
  | pause => Option String
  | resume => Option String
  | incMessagesSeen _ => Unit
  | inc _ => Unit
  | recordWorkQueueCapacity _ => Unit
  | recordWorkQueueDepth _ => Unit

instance (o : ConsumerOp) : Inhabited o.Ans := by
  cases o <;> exact ⟨default⟩

abbrev ConsumerProgram := Prog ConsumerOp.Ans

namespace KafkaConsumer

variable (c : KafkaConsumer)

def pool : WorkerPool := newWorkerPool c.workerCount c.queueCapacity

/-! ## Both sides -/

def maybeApplyBackpressure : ConsumerProgram Unit :=
  .op .queueDepth fun depth =>
    .op (.recordWorkQueueDepth depth) fun _ =>
      match c.backpressurePolicy, c.pauseResumeController with
      | some policy, true =>
          .op .isPaused fun paused =>
            if !paused && policy.shouldPause depth c.pool.queueCapacity then
              .op .pause fun
                | some _ => .ret ()
                | none => .op (.inc .backpressurePauseEvents) .ret
            else
              .op .isPaused fun paused =>
                if paused && policy.shouldResume depth c.pool.queueCapacity then
                  .op .resume fun
                    | some _ => .ret ()
                    | none => .op (.inc .backpressureResumeEvents) .ret
                else .ret ()
      | _, _ => .ret ()

def handleProcessingErrorWithWorker (msg : KafkaMessage) (processingErr workerName : String) :
    ConsumerProgram Unit :=
  .op (.inc .messageErrors) fun _ =>
    if c.deadLetterProducer then
      .op (.publishDeadLetter
          { reason := processingErr
            originalKey := msg.key
            originalValue := msg.value
            sourceTopic := sourceTopicFromMessage msg
            worker := workerName }) fun
        | some _ => .op (.inc .deadLetterPublishErrors) .ret
        | none => .op (.inc .deadLettersPublished) .ret
    else .ret ()

/-! ## The poll goroutine -/

def handleProcessingError (msg : KafkaMessage) (processingErr : String) : ConsumerProgram Unit :=
  c.handleProcessingErrorWithWorker msg processingErr workerIdentity

def workItem (msg : KafkaMessage) (event : DispatchEvent) : WorkItem where
  event := event
  originalKey := msg.key
  originalValue := msg.value
  sourceTopic := sourceTopicFromMessage msg
  headers := msg.headers
  partition := msg.partition
  offset := if 0 ≤ msg.offset then msg.offset else 0

section

variable (errorText : DispatchEventError → String)

/-- `enqueueKafkaMessage`, behind a send that succeeded. -/
def countEnqueued : ConsumerProgram Unit :=
  .op (.inc .workItemsEnqueued) fun _ => c.maybeApplyBackpressure

def enqueueKafkaMessage (msg : KafkaMessage) : ConsumerProgram Unit :=
  .op (.incMessagesSeen msg) fun _ =>
    match parseDispatchEvent msg.value with
    | .error e => c.handleProcessingError msg (errorText e)
    | .ok event =>
        .op (.enqueue .first (workItem msg event)) fun
          | some _ => c.countEnqueued
          | none =>
              .op (.inc .workQueueFullErrors) fun _ =>
                .op (.enqueue .retry (workItem msg event)) fun
                  | some _ => c.countEnqueued
                  | none => .ret ()

/-- The loop, on what its polls return. -/
def pollLoop : List PollEvent → ConsumerProgram (Option RunError)
  | [] => .ret none
  | event :: events =>
      .op .ctxErr fun canceled =>
        if canceled then .ret none
        else
          c.maybeApplyBackpressure.bind fun _ =>
            .op .ctxErr fun canceled =>
              if canceled then .ret none
              else
                match event with
                | .nothing => pollLoop events
                | .message msg =>
                    (c.enqueueKafkaMessage errorText msg).bind fun _ => pollLoop events
                | .error message =>
                    .op (.inc .kafkaErrors) fun _ => .ret (some (.kafka message))

/-- The deferred part of `Run`, which ends with `Shutdown`. -/
def shutdown : ConsumerProgram Unit :=
  .op .queueDepth fun depth =>
    .op (.recordWorkQueueDepth depth) fun _ => .op .close fun _ => .op .wait .ret

def run (pollTimeoutMs : ℤ) (events : List PollEvent) : ConsumerProgram (Option RunError) :=
  if pollTimeoutMs ≤ 0 then .ret (some (.pollTimeout pollTimeoutMs))
  else if c.runnerHandler then
    .op (.recordWorkQueueCapacity c.pool.queueCapacity) fun _ =>
      .op .start fun _ =>
        (c.pollLoop errorText events).bind fun result =>
          shutdown.bind fun _ => .ret result
  else .ret (some .handlerMissing)

end

/-! ## A worker -/

def workerID (index : ℕ) : String :=
  "worker-" ++ String.ofList (intText (index + 1))

def workerNameForPoolWorker (workerID : String) : String :=
  workerIdentity ++ "/" ++ workerID

def handleWorkItemError (workerID : String) (item : WorkItem) (processingErr : String) :
    ConsumerProgram Unit :=
  c.handleProcessingErrorWithWorker
    { key := item.originalKey
      value := item.originalValue
      topic := if item.sourceTopic ≠ "" then some item.sourceTopic else none }
    processingErr (workerNameForPoolWorker workerID)

/-- The body of the loop: an item is handled, and a callback is called. -/
def runItem (workerID : String) (ticket : ℕ) (item : WorkItem) : ConsumerProgram Unit :=
  .op (.handle ticket item) fun
    | .error err => c.handleWorkItemError workerID item err
    | .ok _ => .op (.inc .messagesProcessed) fun _ => c.maybeApplyBackpressure

/-- The loop, cut off after a number of items; `true` is the end of the channel. -/
def runWorker (workerID : String) : ℕ → ConsumerProgram Bool
  | 0 => .ret false
  | items + 1 =>
      .op .receive fun
        | none => .op .done fun _ => .ret true
        | some (ticket, item) =>
            (c.runItem workerID ticket item).bind fun _ => runWorker workerID items

end KafkaConsumer

end KernelQ.Worker
