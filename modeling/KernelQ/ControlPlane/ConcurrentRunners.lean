import KernelQ.Foundation.Threads
import KernelQ.ControlPlane.ResultConsumer
import KernelQ.ControlPlane.SchedulerTick

/-!
# Runners that share a store

`run_once` behind its claim of jobs, and `process_message`, as programs of atomic
operations: `try_claim`, the publish of a job, the call of the result handler, and the
addition to a counter of a consumer. Alone, each is the function it models
(`run_publishJobs`, `run_processMessage`). Here any number of ticks, over any batches,
and of deliveries to any consumers run at once over one store whose keys do not
expire; whatever else they ask may be answered in any way.
-/

namespace KernelQ.ControlPlane

open KernelQ.Foundation

namespace ConcurrentRunners

/-- The operations; consumers are numbered. -/
inductive ControlOp
  | tryClaim (key : String) (ttlSeconds : ℤ)
  /-- `publish_dispatch_event` of the job's event. -/
  | publish (job : JobRecord)
  | handle (consumer : ℕ) (event : WorkerResultEvent)
  | countDuplicate (consumer : ℕ)
  | countProcessed (consumer : ℕ)

/-- The answers; `ε` is what a handler raises. -/
@[reducible] def ControlOp.Ans (ε : Type) : ControlOp → Type
  | tryClaim _ _ => Except PyException Bool
  | publish _ => Except PyException Unit
  | handle _ _ => Except ε Unit
  | countDuplicate _ => Unit
  | countProcessed _ => Unit

variable {ε : Type}

abbrev Program (ε : Type) := Prog (ControlOp.Ans ε)

abbrev Event (ε : Type) := Prog.Event (ControlOp.Ans ε)

/-! ## The tick -/

/-- What the loop over the claimed jobs counts. -/
structure Tally where
  publishedCount : ℕ := 0
  publishErrors : List String := []
  duplicateDispatches : ℕ := 0

def publishJob (runner : SchedulerTickRunner) (tally : Tally) (job : JobRecord) :
    Program ε (Except PyException Tally) :=
  match dispatchKey job.jobId (.int job.retryCount) with
  | .error e => .ret (.error e)
  | .ok dedupeKey =>
      .op (.tryClaim dedupeKey runner.dispatchDedupeTtlSeconds) fun
        | .error e => .ret (.error e)
        | .ok false =>
            .ret (.ok { tally with duplicateDispatches := tally.duplicateDispatches + 1 })
        | .ok true =>
            .op (.publish job) fun
              | .ok () => .ret (.ok { tally with publishedCount := tally.publishedCount + 1 })
              | .error e =>
                  let error := "publish " ++ job.jobId ++ ": " ++ e.type ++ ": " ++ e.message
                  .ret (.ok { tally with publishErrors := tally.publishErrors ++ [error] })

def publishJobs (runner : SchedulerTickRunner) :
    Tally → List JobRecord → Program ε (Tally × Option PyException)
  | tally, [] => .ret (tally, none)
  | tally, job :: jobs =>
      (publishJob runner tally job).bind fun
        | .ok tally' => publishJobs runner tally' jobs
        | .error e => .ret (tally, some e)

/-- `run_once` of a runner with a producer, once the jobs are claimed. -/
def runOnce (runner : SchedulerTickRunner) (claimedJobs : List JobRecord) :
    Program ε (Except PyException SchedulerTickResult) :=
  (publishJobs runner {} claimedJobs).bind fun
    | (_, some e) => .ret (.error e)
    | (tally, none) =>
        .ret (.ok
          { selectedCount := claimedJobs.length
            dispatchedCount := claimedJobs.length
            dispatchedJobIds := claimedJobs.map JobRecord.jobId
            publishedCount := tally.publishedCount
            publishErrors := tally.publishErrors
            duplicateDispatches := tally.duplicateDispatches })

/-! ## The delivery -/

def processMessage (repr : Json → String) (consumer : ℕ) (dedupeTtlSeconds : ℤ)
    (message : ResultMessage) : Program ε (Outcome ε) :=
  match parseWorkerResultEvent repr message.value with
  | .error e => .ret (.rejected e)
  | .ok event =>
      match workerResultKey event.jobId event.attempt with
      | .error e => .ret (.noKey e)
      | .ok dedupeKey =>
          .op (.tryClaim dedupeKey dedupeTtlSeconds) fun
            | .error e => .ret (.storeFailed e)
            | .ok false => .op (.countDuplicate consumer) fun _ => .ret .duplicate
            | .ok true =>
                .op (.handle consumer event) fun
                  | .error e => .ret (.handled (.error e))
                  | .ok () => .op (.countProcessed consumer) fun _ => .ret (.handled (.ok ()))

/-! ## Alone -/

section

variable {σ π η : Type} (S : IdempotencyStore σ) (P : JobProducer π)

/-- The store and the producer answer a tick. -/
def answerTick (s : σ × π) : (o : ControlOp) → (σ × π) × o.Ans ε
  | .tryClaim key ttlSeconds =>
      match S.tryClaim s.1 key ttlSeconds with
      | .error e => (s, .error e)
      | .ok (claimed, store) => ((store, s.2), .ok claimed)
  | .publish job => ((s.1, (P.publish s.2 (.ofJob job)).1), (P.publish s.2 (.ofJob job)).2)
  | .handle _ _ => (s, .ok ())
  | .countDuplicate _ => (s, ())
  | .countProcessed _ => (s, ())

/-- The loop's state without its store and its producer. -/
def tallyOf (l : SchedulerTickRunner.Loop σ π) : Tally :=
  ⟨l.publishedCount, l.publishErrors, l.duplicateDispatches⟩

theorem run_publishJob (runner : SchedulerTickRunner) (l : SchedulerTickRunner.Loop σ π)
    (job : JobRecord) :
    (publishJob runner (tallyOf l) job : Program ε _).run (answerTick S P) (l.store, l.producer) =
      match SchedulerTickRunner.publishJob S P runner l job with
      | .ok l' => ((l'.store, l'.producer), .ok (tallyOf l'))
      | .error e => ((l.store, l.producer), .error e) := by
  unfold publishJob SchedulerTickRunner.publishJob
  cases dispatchKey job.jobId (.int job.retryCount) with
  | error e => rfl
  | ok dedupeKey =>
      simp only [Prog.run_op, answerTick, bind, Except.bind]
      rcases S.tryClaim l.store dedupeKey runner.dispatchDedupeTtlSeconds with
        e | ⟨_ | _, store⟩
      · rfl
      · rfl
      · simp only [Prog.run_op, answerTick, if_true]
        rcases P.publish l.producer (.ofJob job) with ⟨producer, e | _⟩ <;> rfl

/-- **The program of the loop alone is the loop.** -/
theorem run_publishJobs (runner : SchedulerTickRunner) (jobs : List JobRecord) :
    ∀ l : SchedulerTickRunner.Loop σ π,
      (publishJobs runner (tallyOf l) jobs : Program ε _).run (answerTick S P)
          (l.store, l.producer) =
        (((SchedulerTickRunner.publishJobs S P runner l jobs).1.store,
            (SchedulerTickRunner.publishJobs S P runner l jobs).1.producer),
          tallyOf (SchedulerTickRunner.publishJobs S P runner l jobs).1,
          (SchedulerTickRunner.publishJobs S P runner l jobs).2) := by
  induction jobs with
  | nil =>
      intro l
      rfl
  | cons job jobs ih =>
      intro l
      rw [publishJobs, Prog.run_bind, run_publishJob, SchedulerTickRunner.publishJobs]
      cases SchedulerTickRunner.publishJob S P runner l job with
      | error e => rfl
      | ok l' => exact ih l'

theorem run_runOnce (runner : SchedulerTickRunner) {E : Executor} {now : ℤ}
    {w : SchedulerTickRunner.World σ π} {jobs : Jobs} {claimedJobs : List JobRecord}
    (hclaim : JobRepository.claimSchedulableJobs w.jobs E now runner.maxJobsPerTick =
      .ok (jobs, claimedJobs)) :
    SchedulerTickRunner.runOnce S P runner E now w =
      let r := (runOnce runner claimedJobs : Program ε _).run (answerTick S P)
        (w.store, w.producer)
      (⟨jobs, r.1.1, r.1.2⟩, r.2) := by
  have hloop := run_publishJobs (ε := ε) S P runner claimedJobs ⟨w.store, w.producer, 0, [], 0⟩
  rw [SchedulerTickRunner.runOnce, hclaim, runOnce, Prog.run_bind]
  change (publishJobs runner {} claimedJobs : Program ε _).run _ _ = _ at hloop
  rw [hloop]
  dsimp only
  rcases SchedulerTickRunner.publishJobs S P runner ⟨w.store, w.producer, 0, [], 0⟩ claimedJobs with
    ⟨l, _ | e⟩
  · rfl
  · rfl

/-- The store, the handler and the counters of a consumer answer a delivery. -/
def answerDelivery (handle : ResultHandler η ε) (runner : ResultConsumerRunner σ η) :
    (o : ControlOp) → ResultConsumerRunner σ η × o.Ans ε
  | .tryClaim key ttlSeconds =>
      match S.tryClaim runner.store key ttlSeconds with
      | .error e => (runner, .error e)
      | .ok (claimed, store) => ({ runner with store }, .ok claimed)
  | .publish _ => (runner, .ok ())
  | .handle _ event =>
      match handle runner.handler event with
      | (handler, result) => ({ runner with handler }, result)
  | .countDuplicate _ =>
      ({ runner with duplicateMessages := runner.duplicateMessages + 1 }, ())
  | .countProcessed _ =>
      ({ runner with processedMessages := runner.processedMessages + 1 }, ())

/-- **The program of a delivery alone is `process_message`.** -/
theorem run_processMessage (handle : ResultHandler η ε) (repr : Json → String) (consumer : ℕ)
    (ttl : ℤ) (runner : ResultConsumerRunner σ η) (message : ResultMessage) :
    (processMessage repr consumer ttl message).run (answerDelivery S handle) runner =
      runner.processMessage S handle repr ttl message := by
  unfold processMessage ResultConsumerRunner.processMessage
  cases parseWorkerResultEvent repr message.value with
  | error e => rfl
  | ok event =>
      dsimp only
      cases workerResultKey event.jobId event.attempt with
      | error e => rfl
      | ok dedupeKey =>
          simp only [Prog.run_op, answerDelivery]
          rcases S.tryClaim runner.store dedupeKey ttl with e | ⟨_ | _, store⟩
          · rfl
          · rfl
          · simp only [Prog.run_op, answerDelivery]
            rcases handle runner.handler event with ⟨handler, e | _⟩ <;> rfl

end

/-! ## The calls -/

inductive Call
  | tick (runner : SchedulerTickRunner) (claimedJobs : List JobRecord)
  | deliver (consumer : ℕ) (dedupeTtlSeconds : ℤ) (message : ResultMessage)

namespace Call

def isTick : Call → Bool
  | tick _ _ => true
  | deliver _ _ _ => false

/-- Whose counters the call may add to. -/
def consumer : Call → Option ℕ
  | tick _ _ => none
  | deliver consumer _ _ => some consumer

end Call

inductive Returned (ε : Type)
  | ticked (result : Except PyException SchedulerTickResult)
  | delivered (outcome : Outcome ε)

def program (repr : Json → String) : Call → Prog (ControlOp.Ans ε) (Returned ε)
  | .tick runner claimedJobs => (runOnce runner claimedJobs).bind fun r => .ret (.ticked r)
  | .deliver consumer ttl message =>
      (processMessage repr consumer ttl message).bind fun o => .ret (.delivered o)

/-! ## What happens -/

/-- The claim is won. -/
def won (key : String) : Event ε → Bool
  | ⟨.tryClaim k _, .ok true⟩ => k = key
  | _ => false

def refused (key : String) : Event ε → Bool
  | ⟨.tryClaim k _, .ok false⟩ => k = key
  | _ => false

/-- The key may be claimed from now on: by a claim that is won, or one that failed. -/
def takes (key : String) : Event ε → Bool
  | ⟨.tryClaim k _, .ok true⟩ => k = key
  | ⟨.tryClaim k _, .error _⟩ => k = key
  | _ => false

def asks (key : String) : Event ε → Bool
  | ⟨.tryClaim k _, _⟩ => k = key
  | _ => false

/-- The producer is asked to publish a job of the generation: its stripped job id and
its `retry_count`. -/
def publishes (g : String × ℕ) : Event ε → Bool
  | ⟨.publish job, _⟩ => (strip job.jobId, job.retryCount) = g
  | _ => false

/-- The handler is called with a result of the generation. -/
def handles (g : String × ℤ) : Event ε → Bool
  | ⟨.handle _ event, _⟩ => (strip event.jobId, event.attempt.toInt) = g
  | _ => false

def countsDuplicate (consumer : ℕ) : Event ε → Bool
  | ⟨.countDuplicate c, _⟩ => c = consumer
  | _ => false

def countsProcessed (consumer : ℕ) : Event ε → Bool
  | ⟨.countProcessed c, _⟩ => c = consumer
  | _ => false

def dispatchText (g : String × ℕ) : String :=
  "dispatch" ++ ":" ++ g.1 ++ ":" ++ (PyInt.int g.2).format

/-- **No key is both a dispatch key and a result key**: they begin differently. -/
theorem keys_apart {jobId jobId' key : String} {a a' : PyInt}
    (h : dispatchKey jobId a = .ok key) : workerResultKey jobId' a' ≠ .ok key := by
  intro h'
  obtain ⟨-, -, rfl⟩ := attemptKey_eq_ok_iff.mp h
  obtain ⟨-, -, heq⟩ := attemptKey_eq_ok_iff.mp h'
  have hfirst := congrArg (fun k => k.toList.head?) heq
  simp [String.toList_append] at hfirst

/-! ## What a tick can have done -/

/-- A tick claims dispatch keys, and publishes. -/
def TickEvent : Event ε → Prop
  | ⟨.tryClaim key _, _⟩ => ∃ jobId a, dispatchKey jobId a = .ok key
  | ⟨.publish _, _⟩ => True
  | _ => False

structure TickSound (h : List (Event ε)) : Prop where
  events : ∀ e ∈ h, TickEvent e
  /-- A publish follows a claim that was won. -/
  publishes_le : ∀ g, h.countP (publishes g) ≤ h.countP (won (dispatchText g))

variable {h : List (Event ε)}

theorem TickSound.nil : TickSound ([] : List (Event ε)) where
  events := by
    intro e he
    cases he
  publishes_le := fun _ => le_refl _

theorem TickSound.claim (hsound : TickSound h) {jobId key : String} {n : PyInt} {ttl : ℤ}
    {a : Except PyException Bool} (hkey : dispatchKey jobId n = .ok key) :
    TickSound (h ++ [⟨.tryClaim key ttl, a⟩]) where
  events := by
    intro e he
    rcases List.mem_append.mp he with he | he
    · exact hsound.events e he
    · rw [List.mem_singleton.mp he]
      exact ⟨jobId, n, hkey⟩
  publishes_le := by
    intro g
    rw [List.countP_append, List.countP_append]
    exact Nat.add_le_add (hsound.publishes_le g) (Nat.zero_le _)

theorem TickSound.publish (hsound : TickSound h) {job : JobRecord} {key : String} {ttl : ℤ}
    {a : Except PyException Unit} (hkey : dispatchKey job.jobId (.int job.retryCount) = .ok key) :
    TickSound (h ++ [⟨.tryClaim key ttl, .ok true⟩] ++ [⟨.publish job, a⟩]) where
  events := by
    intro e he
    rcases List.mem_append.mp he with he | he
    · exact (hsound.claim hkey).events e he
    · rw [List.mem_singleton.mp he]
      trivial
  publishes_le := by
    intro g
    have hone : [(⟨.publish job, a⟩ : Event ε)].countP (publishes g) ≤
        [(⟨.tryClaim key ttl, .ok true⟩ : Event ε)].countP (won (dispatchText g)) := by
      by_cases hg : (strip job.jobId, job.retryCount) = g
      · obtain ⟨-, -, rfl⟩ := attemptKey_eq_ok_iff.mp hkey
        subst hg
        simp [publishes, won, dispatchText]
      · simp [publishes, hg]
    simp only [List.countP_append]
    have hbefore := hsound.publishes_le g
    have hclaim : [(⟨.tryClaim key ttl, .ok true⟩ : Event ε)].countP (publishes g) = 0 := rfl
    omega

theorem always_publishJob (hsound : TickSound h) (runner : SchedulerTickRunner) (tally : Tally)
    (job : JobRecord) :
    (publishJob runner tally job).Always TickSound (fun _ _ => True) h := by
  unfold publishJob
  cases hkey : dispatchKey job.jobId (.int job.retryCount) with
  | error e => exact .ret hsound trivial
  | ok dedupeKey =>
      refine .op hsound ?_
      rintro (e | _ | _)
      · exact .ret (hsound.claim hkey) trivial
      · exact .ret (hsound.claim hkey) trivial
      refine .op (hsound.claim hkey) ?_
      rintro (e | _)
      · exact .ret (hsound.publish hkey) trivial
      · exact .ret (hsound.publish hkey) trivial

theorem always_publishJobs (runner : SchedulerTickRunner) (jobs : List JobRecord) :
    ∀ (tally : Tally) {h : List (Event ε)}, TickSound h →
      (publishJobs runner tally jobs).Always TickSound (fun _ _ => True) h := by
  induction jobs with
  | nil =>
      intro tally h hsound
      exact .ret hsound trivial
  | cons job jobs ih =>
      intro tally h hsound
      refine .bind ((always_publishJob hsound runner tally job).mono ?_)
      intro r h' hsound' _
      rcases r with e | tally'
      · exact .ret hsound' trivial
      · exact ih tally' hsound'

theorem always_runOnce (runner : SchedulerTickRunner) (claimedJobs : List JobRecord) :
    (runOnce (ε := ε) runner claimedJobs).Always TickSound (fun _ _ => True) [] := by
  refine .bind ((always_publishJobs runner claimedJobs {} .nil).mono ?_)
  intro r h hsound _
  obtain ⟨tally, e | e⟩ := r
  · exact .ret hsound trivial
  · exact .ret hsound trivial

/-! ## What a delivery can have done -/

section

variable (repr : Json → String) (consumer : ℕ) (ttl : ℤ) (message : ResultMessage)

inductive DeliverySound : List (Event ε) → Prop
  | nothing : DeliverySound []
  | asked {event : WorkerResultEvent} {key : String}
      (hparse : parseWorkerResultEvent repr message.value = .ok event)
      (hkey : workerResultKey event.jobId event.attempt = .ok key)
      (a : Except PyException Bool) : DeliverySound [⟨.tryClaim key ttl, a⟩]
  | duplicate {event : WorkerResultEvent} {key : String}
      (hparse : parseWorkerResultEvent repr message.value = .ok event)
      (hkey : workerResultKey event.jobId event.attempt = .ok key) :
      DeliverySound [⟨.tryClaim key ttl, .ok false⟩, ⟨.countDuplicate consumer, ()⟩]
  | handled {event : WorkerResultEvent} {key : String}
      (hparse : parseWorkerResultEvent repr message.value = .ok event)
      (hkey : workerResultKey event.jobId event.attempt = .ok key) (a : Except ε Unit) :
      DeliverySound [⟨.tryClaim key ttl, .ok true⟩, ⟨.handle consumer event, a⟩]
  | processed {event : WorkerResultEvent} {key : String}
      (hparse : parseWorkerResultEvent repr message.value = .ok event)
      (hkey : workerResultKey event.jobId event.attempt = .ok key) :
      DeliverySound [⟨.tryClaim key ttl, .ok true⟩, ⟨.handle consumer event, .ok ()⟩,
        ⟨.countProcessed consumer, ()⟩]

/-- `process_message` has raised. -/
def raised : Outcome ε → Bool
  | .rejected _ => true
  | .noKey _ => true
  | .storeFailed _ => true
  | .duplicate => false
  | .handled (.error _) => true
  | .handled (.ok ()) => false

/-- A delivery that has returned has counted, or it has raised. -/
def Accounted (o : Outcome ε) (h : List (Event ε)) : Prop :=
  h.countP (countsProcessed consumer) + h.countP (countsDuplicate consumer) + (raised o).toNat = 1

theorem always_processMessage :
    (processMessage repr consumer ttl message).Always
      (DeliverySound (ε := ε) repr consumer ttl message) (Accounted consumer) [] := by
  unfold processMessage
  cases hparse : parseWorkerResultEvent repr message.value with
  | error e => exact .ret .nothing rfl
  | ok event =>
      dsimp only
      cases hkey : workerResultKey event.jobId event.attempt with
      | error e => exact .ret .nothing rfl
      | ok dedupeKey =>
          refine .op .nothing ?_
          rintro (e | _ | _)
          · exact .ret (.asked hparse hkey _) rfl
          · refine .op (.asked hparse hkey _) fun _ => .ret (.duplicate hparse hkey) ?_
            simp [Accounted, countsProcessed, countsDuplicate, raised]
          refine .op (.asked hparse hkey _) ?_
          rintro (e | _)
          · exact .ret (.handled hparse hkey _) rfl
          · refine .op (.handled hparse hkey _) fun _ => .ret (.processed hparse hkey) ?_
            simp [Accounted, countsProcessed, countsDuplicate, raised]

end

/-! ## What any call can have done -/

section

variable (repr : Json → String)

def Sound : Call → List (Event ε) → Prop
  | .tick _ _, h => TickSound h
  | .deliver consumer ttl message, h => DeliverySound repr consumer ttl message h

def Ends : Call → Returned ε → List (Event ε) → Prop
  | .tick _ _, _, _ => True
  | .deliver consumer _ _, .delivered o, h => Accounted consumer o h
  | .deliver _ _ _, .ticked _, _ => False

theorem always_program (c : Call) :
    (program (ε := ε) repr c).Always (Sound repr c) (Ends c) [] := by
  cases c with
  | tick runner claimedJobs =>
      refine .bind ((always_runOnce runner claimedJobs).mono ?_)
      intro r h hsound _
      exact .ret hsound trivial
  | deliver consumer ttl message =>
      refine .bind ((always_processMessage repr consumer ttl message).mono ?_)
      intro o h hsound haccounted
      exact .ret hsound haccounted

variable {repr} {c : Call}

theorem Sound.publishes_le (hsound : Sound repr c h) (g : String × ℕ) :
    h.countP (publishes g) ≤ h.countP (won (dispatchText g)) := by
  cases c with
  | tick runner claimedJobs => exact TickSound.publishes_le hsound g
  | deliver consumer ttl message =>
      have hnone : h.countP (publishes g) = 0 := by
        change DeliverySound repr consumer ttl message h at hsound
        cases hsound <;> rfl
      rw [hnone]
      exact Nat.zero_le _

theorem TickSound.countP_eq_zero (hsound : TickSound h) {p : Event ε → Bool}
    (hp : ∀ e, TickEvent e → p e = false) : h.countP p = 0 := by
  refine List.countP_eq_zero.mpr ?_
  intro e he hpe
  rw [hp e (hsound.events e he)] at hpe
  cases hpe

/-- Ticks ask for dispatch keys, deliveries for result keys. -/
theorem Sound.of_asks (hsound : Sound repr c h) {key : String} {e : Event ε} (he : e ∈ h)
    (hasks : asks key e = true) :
    (c.isTick = true ∧ ∃ jobId n, dispatchKey jobId n = .ok key) ∨
      (c.isTick = false ∧ ∃ jobId n, workerResultKey jobId n = .ok key) := by
  obtain ⟨o, a⟩ := e
  cases o with
  | tryClaim k ttl =>
      obtain rfl := of_decide_eq_true hasks
      cases c with
      | tick runner claimedJobs => exact .inl ⟨rfl, TickSound.events hsound _ he⟩
      | deliver consumer ttl' message =>
          refine .inr ⟨rfl, ?_⟩
          change DeliverySound repr consumer ttl' message h at hsound
          cases hsound with
          | nothing => cases he
          | asked hparse hkey _ =>
              cases List.mem_singleton.mp he
              exact ⟨_, _, hkey⟩
          | duplicate hparse hkey =>
              simp only [List.mem_cons, List.not_mem_nil, or_false] at he
              rcases he with heq | heq
              · cases heq
                exact ⟨_, _, hkey⟩
              · cases heq
          | handled hparse hkey _ =>
              simp only [List.mem_cons, List.not_mem_nil, or_false] at he
              rcases he with heq | heq
              · cases heq
                exact ⟨_, _, hkey⟩
              · cases heq
          | processed hparse hkey =>
              simp only [List.mem_cons, List.not_mem_nil, or_false] at he
              rcases he with heq | heq | heq
              · cases heq
                exact ⟨_, _, hkey⟩
              · cases heq
              · cases heq
  | _ => cases hasks

/-- Only the consumer of a call gets counts from it. -/
theorem Sound.counts_eq_zero (hsound : Sound repr c h) {consumer : ℕ}
    (hother : c.consumer ≠ some consumer) :
    h.countP (countsProcessed consumer) = 0 ∧ h.countP (countsDuplicate consumer) = 0 := by
  cases c with
  | tick runner claimedJobs =>
      constructor
      · refine TickSound.countP_eq_zero hsound ?_
        rintro ⟨o, a⟩ hevent
        cases o with
        | countProcessed consumer => cases hevent
        | _ => rfl
      · refine TickSound.countP_eq_zero hsound ?_
        rintro ⟨o, a⟩ hevent
        cases o with
        | countDuplicate consumer => cases hevent
        | _ => rfl
  | deliver consumer' ttl message =>
      have hne : consumer' ≠ consumer := fun heq => hother (congrArg some heq)
      change DeliverySound repr consumer' ttl message h at hsound
      cases hsound with
      | nothing => exact ⟨rfl, rfl⟩
      | asked hparse hkey a => exact ⟨rfl, rfl⟩
      | duplicate hparse hkey => simp [countsProcessed, countsDuplicate, hne]
      | handled hparse hkey a => exact ⟨rfl, rfl⟩
      | processed hparse hkey => simp [countsProcessed, countsDuplicate, hne]

/-! ## The calls together -/

structure Shared where
  claimed : List String := []
  duplicateMessages : ℕ → ℕ := fun _ => 0
  processedMessages : ℕ → ℕ := fun _ => 0

/-- Add one to the counter of a consumer. -/
def increment (counter : ℕ → ℕ) (consumer : ℕ) : ℕ → ℕ := fun c =>
  counter c + (decide (consumer = c)).toNat

/-- What the surroundings may answer. The store may also fail, and it may have claimed
the key before it did. -/
inductive Responds : Shared → Event ε → Shared → Prop
  | tryClaim (s : Shared) (key : String) (ttlSeconds : ℤ) (a : Bool) (claimed : List String)
      (hanswer : claimedKeys.tryClaim s.claimed key ttlSeconds = .ok (a, claimed)) :
      Responds s ⟨.tryClaim key ttlSeconds, .ok a⟩ { s with claimed }
  | fails (s : Shared) (key : String) (ttlSeconds : ℤ) (e : PyException) (claimed : List String)
      (hclaimed : claimed = s.claimed ∨ claimed = key :: s.claimed) :
      Responds s ⟨.tryClaim key ttlSeconds, .error e⟩ { s with claimed }
  | publish (s : Shared) (job : JobRecord) (a : Except PyException Unit) :
      Responds s ⟨.publish job, a⟩ s
  | handle (s : Shared) (consumer : ℕ) (event : WorkerResultEvent) (a : Except ε Unit) :
      Responds s ⟨.handle consumer event, a⟩ s
  | countDuplicate (s : Shared) (consumer : ℕ) :
      Responds s ⟨.countDuplicate consumer, ()⟩
        { s with duplicateMessages := increment s.duplicateMessages consumer }
  | countProcessed (s : Shared) (consumer : ℕ) :
      Responds s ⟨.countProcessed consumer, ()⟩
        { s with processedMessages := increment s.processedMessages consumer }

abbrev Runners (ε : Type) := Pool Shared Call (ControlOp.Ans ε) (Returned ε)

/-- The calls to a consumer have returned. -/
def Idle (s : Runners ε) (consumer : ℕ) : Prop :=
  ∀ t ∈ s.threads, t.call.consumer = some consumer → ∃ a, t.rest = .ret a

/-- A consumer takes one message at a time. -/
def MayCall (s : Runners ε) (c : Call) : Prop :=
  ∀ consumer, c.consumer = some consumer → Idle s consumer

/-- Any batches and any messages, in any interleaving. -/
def Reachable (repr : Json → String) : Runners ε → Prop :=
  Pool.Reachable (program repr) MayCall Responds {}

/-- The call was a delivery to the consumer. -/
def callOf (consumer : ℕ) (t : Thread Call (ControlOp.Ans ε) (Returned ε)) : Bool :=
  t.call.consumer = some consumer

/-- The call was a delivery to the consumer, and has raised. -/
def raisedOf (consumer : ℕ) (t : Thread Call (ControlOp.Ans ε) (Returned ε)) : Bool :=
  callOf consumer t && match t.rest with
    | .ret (.delivered o) => raised o
    | _ => false

/-- Effects at most once per generation, and what goes with it. -/
structure AtMostOnce (s : Runners ε) : Prop where
  publishes_once : ∀ g, s.count (fun _ => publishes g) ≤ 1
  handles_once : ∀ g, s.count (fun _ => handles g) ≤ 1
  /-- A claim is refused because of a call of the same kind: one of them has claimed
  the key, and no call of the other kind ever asks for it. -/
  blocked_by_own : ∀ t ∈ s.threads, ∀ key, (∃ e ∈ t.history, refused key e) →
    (∃ u ∈ s.threads, u.call.isTick = t.call.isTick ∧ ∃ e ∈ u.history, takes key e) ∧
    ∀ u ∈ s.threads, u.call.isTick ≠ t.call.isTick → ∀ e ∈ u.history, ¬ asks key e
  accounted : ∀ consumer, Idle s consumer →
    s.shared.processedMessages consumer + s.shared.duplicateMessages consumer +
        s.threads.countP (raisedOf consumer) =
      s.threads.countP (callOf consumer)

variable {s : Runners ε}

theorem claimedKeys_cases {keys keys' : List String} {key : String} {ttlSeconds : ℤ} {a : Bool}
    (h : claimedKeys.tryClaim keys key ttlSeconds = .ok (a, keys')) :
    (a = true ∧ key ∉ keys ∧ keys' = key :: keys) ∨ (a = false ∧ key ∈ keys ∧ keys' = keys) := by
  have hvalid : validateClaimInputs key ttlSeconds = .ok () := by
    cases hv : validateClaimInputs key ttlSeconds with
    | error e =>
        simp only [claimedKeys, hv] at h
        cases h
    | ok _ => rfl
  simp only [claimedKeys, hvalid, bind, Except.bind] at h
  by_cases hk : key ∈ keys
  · rw [if_pos hk] at h
    cases h
    exact .inr ⟨rfl, hk, rfl⟩
  · rw [if_neg hk] at h
    cases h
    exact .inl ⟨rfl, hk, rfl⟩

/-- Claims stay. -/
theorem Responds.claimed_mono {x y : Shared} {e : Event ε} (h : Responds x e y) {k : String}
    (hk : k ∈ x.claimed) : k ∈ y.claimed := by
  cases h with
  | tryClaim key ttl a claimed hanswer =>
      rcases claimedKeys_cases hanswer with ⟨-, -, rfl⟩ | ⟨-, -, rfl⟩
      · exact List.mem_cons_of_mem _ hk
      · exact hk
  | fails key ttl e claimed hclaimed =>
      rcases hclaimed with rfl | rfl
      · exact hk
      · exact List.mem_cons_of_mem _ hk
  | _ => exact hk

/-- A claim is won on a free key, and takes it. -/
theorem Responds.won {x y : Shared} {e : Event ε} (h : Responds x e y) {k : String}
    (hwon : won k e = true) : k ∉ x.claimed ∧ k ∈ y.claimed := by
  cases h with
  | tryClaim key ttl a claimed hanswer =>
      rcases claimedKeys_cases hanswer with ⟨rfl, hfree, rfl⟩ | ⟨rfl, -, -⟩
      · obtain rfl := of_decide_eq_true hwon
        exact ⟨hfree, List.mem_cons_self⟩
      · cases hwon
  | _ => cases hwon

/-- A claim is refused on a key that is claimed. -/
theorem Responds.refused {x y : Shared} {e : Event ε} (h : Responds x e y) {k : String}
    (hrefused : refused k e = true) : k ∈ x.claimed := by
  cases h with
  | tryClaim key ttl a claimed hanswer =>
      rcases claimedKeys_cases hanswer with ⟨rfl, -, -⟩ | ⟨rfl, hmem, -⟩
      · cases hrefused
      · obtain rfl := of_decide_eq_true hrefused
        exact hmem
  | _ => cases hrefused

/-- Nothing but a claim takes a key. -/
theorem Responds.takes {x y : Shared} {e : Event ε} (h : Responds x e y) {k : String}
    (hk : k ∈ y.claimed) : k ∈ x.claimed ∨ takes k e = true := by
  cases h with
  | tryClaim key ttl a claimed hanswer =>
      rcases claimedKeys_cases hanswer with ⟨rfl, -, rfl⟩ | ⟨rfl, -, rfl⟩
      · rcases List.mem_cons.mp hk with rfl | hk
        · exact .inr (decide_eq_true rfl)
        · exact .inl hk
      · exact .inl hk
  | fails key ttl e claimed hclaimed =>
      rcases hclaimed with rfl | rfl
      · exact .inl hk
      · rcases List.mem_cons.mp hk with rfl | hk
        · exact .inr (decide_eq_true rfl)
        · exact .inl hk
  | _ => exact .inl hk

theorem Reachable.thread (h : Reachable repr s)
    {t : Thread Call (ControlOp.Ans ε) (Returned ε)} (ht : t ∈ s.threads) :
    Sound repr t.call t.history ∧ ∀ a, t.rest = .ret a → Ends t.call a t.history :=
  h.always (always_program repr) ht

theorem Reachable.won_le (h : Reachable repr s) (key : String) :
    s.count (fun _ => won key) ≤ 1 :=
  (h.count_le_one (fun s => key ∈ s.claimed) (fun _ _ _ _ hr => hr.won)
    fun _ _ _ hr => hr.claimed_mono).1

theorem Reachable.publishes_le (h : Reachable repr s) (g : String × ℕ) :
    s.count (fun _ => publishes g) ≤ 1 :=
  le_trans (Pool.count_le fun _ ht => (h.thread ht).1.publishes_le g) (h.won_le _)

theorem asks_of_refused {key : String} {e : Event ε} (h : refused key e = true) :
    asks key e = true := by
  obtain ⟨o, a⟩ := e
  cases o with
  | tryClaim k ttl =>
      rcases a with e | _ | _
      · cases h
      · exact h
      · cases h
  | _ => cases h

theorem asks_of_takes {key : String} {e : Event ε} (h : takes key e = true) :
    asks key e = true := by
  obtain ⟨o, a⟩ := e
  cases o with
  | tryClaim k ttl =>
      rcases a with e | _ | _
      · exact h
      · cases h
      · exact h
  | _ => cases h

/-- Calls that ask for one key are of one kind. -/
theorem Sound.isTick_eq {c' : Call} {h' : List (Event ε)} (hsound : Sound repr c h)
    (hsound' : Sound repr c' h') {key : String} {e e' : Event ε} (he : e ∈ h) (he' : e' ∈ h')
    (hasks : asks key e = true) (hasks' : asks key e' = true) : c'.isTick = c.isTick := by
  rcases hsound.of_asks he hasks with ⟨htick, _, _, hkey⟩ | ⟨htick, _, _, hkey⟩
  · rcases hsound'.of_asks he' hasks' with ⟨htick', _⟩ | ⟨_, _, _, hkey'⟩
    · rw [htick, htick']
    · exact absurd hkey' (keys_apart hkey)
  · rcases hsound'.of_asks he' hasks' with ⟨_, _, _, hkey'⟩ | ⟨htick', _⟩
    · exact absurd hkey (keys_apart hkey')
    · rw [htick, htick']

theorem Reachable.blocked_by_own (h : Reachable repr s) :
    ∀ t ∈ s.threads, ∀ key, (∃ e ∈ t.history, refused key e) →
      (∃ u ∈ s.threads, u.call.isTick = t.call.isTick ∧ ∃ e ∈ u.history, takes key e) ∧
      ∀ u ∈ s.threads, u.call.isTick ≠ t.call.isTick → ∀ e ∈ u.history, ¬ asks key e := by
  rintro t ht key ⟨e, he, hrefused⟩
  have hfound : 0 < s.count fun _ => refused key := Pool.count_pos_iff.mpr ⟨t, ht, e, he, hrefused⟩
  have htaken := (h.taken_by (fun s => key ∈ s.claimed) (by simp)
    (fun _ _ _ _ hr => hr.takes) (fun _ _ _ _ hr => hr.refused)).2 hfound
  obtain ⟨u, hu, e', he', htakes⟩ := Pool.count_pos_iff.mp htaken
  refine ⟨⟨u, hu, ?_, e', he', htakes⟩, ?_⟩
  · exact (h.thread ht).1.isTick_eq (h.thread hu).1 he he' (asks_of_refused hrefused)
      (asks_of_takes htakes)
  · intro v hv hother e'' he'' hasks
    exact hother ((h.thread ht).1.isTick_eq (h.thread hv).1 he he'' (asks_of_refused hrefused) hasks)

theorem Reachable.counters (h : Reachable repr s) (consumer : ℕ) :
    s.shared.processedMessages consumer = s.count (fun _ => countsProcessed consumer) ∧
      s.shared.duplicateMessages consumer = s.count (fun _ => countsDuplicate consumer) := by
  constructor
  · refine Pool.Reachable.counter_eq h (fun s => s.processedMessages consumer) rfl ?_
    intro x _ e y hr
    cases hr <;> rfl
  · refine Pool.Reachable.counter_eq h (fun s => s.duplicateMessages consumer) rfl ?_
    intro x _ e y hr
    cases hr <;> rfl

/-- The accounts of a consumer, summed over the threads. -/
theorem sum_accounts {consumer : ℕ} :
    ∀ threads : List (Thread Call (ControlOp.Ans ε) (Returned ε)),
      (∀ t ∈ threads, t.history.countP (countsProcessed consumer) +
          t.history.countP (countsDuplicate consumer) + (raisedOf consumer t).toNat =
        (callOf consumer t).toNat) →
      (threads.map fun t => t.history.countP (countsProcessed consumer)).sum +
          (threads.map fun t => t.history.countP (countsDuplicate consumer)).sum +
          threads.countP (raisedOf consumer) =
        threads.countP (callOf consumer)
  | [], _ => rfl
  | t :: threads, h => by
      have hone := h t List.mem_cons_self
      have hrest := sum_accounts threads fun u hu => h u (List.mem_cons_of_mem _ hu)
      have hcount : ∀ p : Thread Call (ControlOp.Ans ε) (Returned ε) → Bool,
          (t :: threads).countP p = threads.countP p + (p t).toNat := by
        intro p
        rw [List.countP_cons]
        cases p t <;> rfl
      simp only [List.map_cons, List.sum_cons, hcount]
      omega

theorem Reachable.accounted (h : Reachable repr s) {consumer : ℕ} (hidle : Idle s consumer) :
    s.shared.processedMessages consumer + s.shared.duplicateMessages consumer +
        s.threads.countP (raisedOf consumer) =
      s.threads.countP (callOf consumer) := by
  rw [(h.counters consumer).1, (h.counters consumer).2]
  refine sum_accounts s.threads ?_
  intro t ht
  obtain ⟨hsound, hends⟩ := h.thread ht
  by_cases hcall : t.call.consumer = some consumer
  · obtain ⟨a, ha⟩ := hidle t ht hcall
    have haccounted := hends a ha
    rw [raisedOf, callOf, ha, decide_eq_true hcall]
    cases hc : t.call with
    | tick runner claimedJobs =>
        rw [hc] at hcall
        cases hcall
    | deliver consumer' ttl message =>
        rw [hc] at hcall haccounted
        cases hcall
        cases a with
        | ticked r => exact haccounted.elim
        | delivered o => exact haccounted
  · obtain ⟨hprocessed, hduplicate⟩ := hsound.counts_eq_zero hcall
    rw [hprocessed, hduplicate, raisedOf, callOf, decide_eq_false hcall]
    rfl

/-- The store answers, and nothing fails. -/
def smooth (s : Shared) : (o : ControlOp) → Shared × o.Ans ε
  | .tryClaim key ttlSeconds =>
      match claimedKeys.tryClaim s.claimed key ttlSeconds with
      | .error e => (s, .error e)
      | .ok (a, claimed) => ({ s with claimed }, .ok a)
  | .publish _ => (s, .ok ())
  | .handle _ _ => (s, .ok ())
  | .countDuplicate consumer =>
      ({ s with duplicateMessages := increment s.duplicateMessages consumer }, ())
  | .countProcessed consumer =>
      ({ s with processedMessages := increment s.processedMessages consumer }, ())

theorem responds_smooth (s : Shared) (o : ControlOp) :
    Responds s ⟨o, (smooth (ε := ε) s o).2⟩ (smooth (ε := ε) s o).1 := by
  cases o with
  | tryClaim key ttl =>
      simp only [smooth]
      cases hanswer : claimedKeys.tryClaim s.claimed key ttl with
      | error e => exact .fails s key ttl e s.claimed (.inl rfl)
      | ok r =>
          obtain ⟨a, claimed⟩ := r
          exact .tryClaim s key ttl a claimed hanswer
  | publish job => exact .publish s job (.ok ())
  | handle consumer event => exact .handle s consumer event (.ok ())
  | countDuplicate consumer => exact .countDuplicate s consumer
  | countProcessed consumer => exact .countProcessed s consumer

section

variable {x : Shared} {consumer : ℕ} {ttl : ℤ} {message : ResultMessage}
  {event : WorkerResultEvent} {key : String}

end

end

/-! ## One job's results -/

namespace Results

def event (attempt : PyInt) : WorkerResultEvent :=
  ⟨"job.result", "job", "succeeded", "", "worker", attempt⟩

def message (attempt : PyInt) : ResultMessage :=
  ⟨"job", (String.ofList ((Json.obj (event attempt).toDict).render .python)).toUTF8⟩

theorem message_parsed (repr : Json → String) (attempt : PyInt) (hvalid : (event attempt).Valid) :
    parseWorkerResultEvent repr (message attempt).value = .ok (event attempt) := by
  dsimp only [message]
  exact parseWorkerResultEvent_toJson repr (WorkerResultEvent.toJson_of_valid hvalid)

def job : JobRecord := ⟨"job", "tenant", 1, "dispatched", .empty, 0, 3, 0, 0, some 0⟩

def tick : Call := .tick { maxJobs_pos := defaultMaxJobs_pos } [job]

end Results

end ConcurrentRunners

end KernelQ.ControlPlane
