import KernelQ.Foundation.Threads
import KernelQ.Worker.BackpressurePolicy

/-!
# Backpressure from several goroutines

The poll loop and the workers of the pool evaluate backpressure at once, over one
controller and the counters of `Stats`. Reading the flag and acting on it are two critical
sections, so two calls may both find the consumer running and both pause it. The counters
are right exactly for the schedules that leave a call undisturbed between the two
(`bookkeeping_iff`).
-/

namespace KernelQ.Worker

open KernelQ.Foundation

namespace ConcurrentBackpressure

abbrev Event := Prog.Event ConsumerOp.Ans

/-- The controller and the counters, and what has become of the calls of the controller:
how often it was paused and resumed, and how often it was so already. -/
structure Shared where
  controller : InMemoryPauseResumeController := {}
  counts : Counter → ℕ := fun _ => 0
  paused : ℕ := 0
  resumed : ℕ := 0
  pausedAgain : ℕ := 0
  resumedAgain : ℕ := 0

namespace Shared

variable (s : Shared)

def pause : Shared :=
  { s with
    controller := s.controller.pause.1
    paused := s.paused + (!s.controller.isPaused).toNat
    pausedAgain := s.pausedAgain + s.controller.isPaused.toNat }

def resume : Shared :=
  { s with
    controller := s.controller.resume.1
    resumed := s.resumed + s.controller.isPaused.toNat
    resumedAgain := s.resumedAgain + (!s.controller.isPaused).toNat }

def count (counter : Counter) : Shared :=
  { s with counts := Function.update s.counts counter (s.counts counter + 1) }

/-- The answer to an operation, where the depth of the queue is this one. -/
def answer (depth : ℕ) : (o : ConsumerOp) → Option (Shared × o.Ans)
  | .queueDepth => some (s, depth)
  | .recordWorkQueueDepth _ => some (s, ())
  | .isPaused => some (s, s.controller.isPaused)
  | .pause => some (s.pause, s.controller.pause.2)
  | .resume => some (s.resume, s.controller.resume.2)
  | .inc counter => some (s.count counter, ())
  | _ => none

end Shared

variable (c : KafkaConsumer)

/-- Every operation is answered at some depth of the queue. -/
def Responds (s : Shared) (e : Event) (s' : Shared) : Prop :=
  ∃ depth ≤ c.pool.queueCapacity, s.answer depth e.1 = some (s', e.2)

/-- Any number of calls of `maybeApplyBackpressure`, at any time. -/
def Reachable (policy : WatermarkPolicy) : Pool Shared Unit ConsumerOp.Ans Unit → Prop :=
  Pool.Reachable (fun _ => (c.withPolicy policy).maybeApplyBackpressure) (fun _ _ => True)
    (Responds c) {}

/-- No call is in progress. -/
def Quiet (s : Pool Shared Unit ConsumerOp.Ans Unit) : Prop :=
  ∀ t ∈ s.threads, ∃ u, t.rest = .ret u

instance (s : Pool Shared Unit ConsumerOp.Ans Unit) : Decidable (Quiet s) :=
  inferInstanceAs (Decidable (∀ t ∈ s.threads, ∃ u, t.rest = .ret u))

/-- The counters tell whether the consumer is paused, and how often it has been. -/
structure Bookkeeping (s : Shared) : Prop where
  balance : (s.counts .backpressurePauseEvents : ℤ) - s.counts .backpressureResumeEvents =
    if s.controller.paused then 1 else 0
  pauses : s.counts .backpressurePauseEvents = s.paused

/-! ## Schedules -/

/-- What the calls have done, in order, each event with the index of its call. -/
abbrev Log := List (ℕ × Event)

/-- Any number of calls, and what they have done. -/
def Logged (policy : WatermarkPolicy) : Log → Pool Shared Unit ConsumerOp.Ans Unit → Prop :=
  Pool.Logged (fun _ => (c.withPolicy policy).maybeApplyBackpressure) (fun _ _ => True)
    (Responds c) {}

/-- What an event makes of the consumer: paused, or running. -/
def leaves? : Event → Option Bool
  | ⟨.pause, _⟩ => some true
  | ⟨.resume, _⟩ => some false
  | _ => none

/-- What the last of the events that pause or resume has made of the consumer. -/
def left? (log : Log) : Option Bool :=
  (log.filterMap fun x => leaves? x.2).getLast?

/-- Between the moment a call looks at the flag and the moment it pauses or resumes, the
others have not left the consumer as this call then leaves it. -/
def Undisturbed (log : Log) : Prop :=
  ∀ (pre : Log) (i : ℕ) (flag : Bool) (mid : Log) (e : Event) (post : Log) (now : Bool),
    log = pre ++ (i, ⟨.isPaused, flag⟩) :: mid ++ (i, e) :: post →
      (∀ x ∈ mid, x.1 ≠ i) → leaves? e = some now → left? mid ≠ some now

/-! ## One call -/

def pauses : Event → Bool
  | ⟨.pause, none⟩ => true
  | _ => false

def resumes : Event → Bool
  | ⟨.resume, none⟩ => true
  | _ => false

def counts (counter : Counter) : Event → Bool
  | ⟨.inc counter', _⟩ => decide (counter' = counter)
  | _ => false

/-- Every call of the controller has been counted. -/
def Counted (h : List Event) : Prop :=
  h.countP pauses = h.countP (counts .backpressurePauseEvents) ∧
    h.countP resumes = h.countP (counts .backpressureResumeEvents)

variable {c}

theorem counted_maybeApplyBackpressure {policy : WatermarkPolicy} :
    (c.withPolicy policy).maybeApplyBackpressure.Always (fun _ => True) (fun _ => Counted) [] := by
  rw [c.maybeApplyBackpressure_withPolicy]
  refine .op trivial fun depth => .op trivial fun _ => .op trivial fun paused => ?_
  split
  · refine .op trivial fun err => ?_
    cases err with
    | some err => exact .ret trivial ⟨rfl, rfl⟩
    | none => exact .op trivial fun _ => .ret trivial ⟨rfl, rfl⟩
  · refine .op trivial fun paused => ?_
    split
    · refine .op trivial fun err => ?_
      cases err with
      | some err => exact .ret trivial ⟨rfl, rfl⟩
      | none => exact .op trivial fun _ => .ret trivial ⟨rfl, rfl⟩
    · exact .ret trivial ⟨rfl, rfl⟩

/-- A call pauses or resumes only what it has just found running, or paused. -/
def Looks (h : List Event) : Prop :=
  ∀ h' e now, h = h' ++ [e] → leaves? e = some now → ∃ h'', h' = h'' ++ [⟨.isPaused, !now⟩]

theorem looks_of_leaves?_eq_none {h : List Event} {e : Event} (he : leaves? e = none) :
    Looks (h ++ [e]) := by
  intro h' e' now heq hnow
  obtain ⟨-, hlast⟩ := List.append_inj' heq rfl
  rw [← (List.cons.inj hlast).1, he] at hnow
  cases hnow

theorem looks_append {h : List Event} {e : Event} (now : Bool) (he : leaves? e = some now) :
    Looks (h ++ [⟨.isPaused, !now⟩] ++ [e]) := by
  intro h' e' now' heq hnow
  obtain ⟨hrest, hlast⟩ := List.append_inj' heq rfl
  rw [← (List.cons.inj hlast).1, he] at hnow
  obtain rfl := Option.some.inj hnow
  exact ⟨h, hrest.symm⟩

theorem looks_maybeApplyBackpressure {policy : WatermarkPolicy} :
    (c.withPolicy policy).maybeApplyBackpressure.Always Looks (fun _ _ => True) [] := by
  have hnil : Looks [] := by
    intro h' e now heq
    simp at heq
  rw [c.maybeApplyBackpressure_withPolicy]
  refine .op hnil fun depth => .op (looks_of_leaves?_eq_none rfl) fun _ =>
    .op (looks_of_leaves?_eq_none rfl) fun paused => ?_
  split
  · rename_i hrises
    -- it has found the consumer running
    obtain rfl : paused = false := by
      cases paused
      · rfl
      · simp at hrises
    refine .op (looks_of_leaves?_eq_none rfl) fun err => ?_
    cases err with
    | some err => exact .ret (looks_append true rfl) trivial
    | none =>
        exact .op (looks_append true rfl) fun _ => .ret (looks_of_leaves?_eq_none rfl) trivial
  · refine .op (looks_of_leaves?_eq_none rfl) fun paused => ?_
    split
    · rename_i hfalls
      obtain rfl : paused = true := by
        cases paused
        · simp at hfalls
        · rfl
      refine .op (looks_of_leaves?_eq_none rfl) fun err => ?_
      cases err with
      | some err => exact .ret (looks_append false rfl) trivial
      | none =>
          exact .op (looks_append false rfl) fun _ => .ret (looks_of_leaves?_eq_none rfl) trivial
    · exact .ret (looks_of_leaves?_eq_none rfl) trivial

/-! ## All calls -/

/-- **What an operation can do.** -/
theorem responds_cases {s s' : Shared} {e : Event} (h : Responds c s e s') :
    (e = ⟨.pause, none⟩ ∧ s' = s.pause) ∨ (e = ⟨.resume, none⟩ ∧ s' = s.resume) ∨
      (∃ counter, e = ⟨.inc counter, ()⟩ ∧ s' = s.count counter) ∨
      (pauses e = false ∧ resumes e = false ∧ (∀ counter, counts counter e = false) ∧
        leaves? e = none) ∧ s' = s := by
  obtain ⟨o, a⟩ := e
  obtain ⟨depth, -, hanswer⟩ := h
  cases o <;> simp only [Shared.answer, reduceCtorEq, Option.some.injEq, Prod.mk.injEq] at hanswer
  case queueDepth => exact .inr (.inr (.inr ⟨⟨rfl, rfl, fun _ => rfl, rfl⟩, hanswer.1.symm⟩))
  case recordWorkQueueDepth =>
    exact .inr (.inr (.inr ⟨⟨rfl, rfl, fun _ => rfl, rfl⟩, hanswer.1.symm⟩))
  case isPaused => exact .inr (.inr (.inr ⟨⟨rfl, rfl, fun _ => rfl, rfl⟩, hanswer.1.symm⟩))
  case pause =>
      obtain ⟨rfl, rfl⟩ := hanswer
      rw [InMemoryPauseResumeController.pause_eq]
      exact .inl ⟨rfl, rfl⟩
  case resume =>
      obtain ⟨rfl, rfl⟩ := hanswer
      rw [InMemoryPauseResumeController.resume_eq]
      exact .inr (.inl ⟨rfl, rfl⟩)
  case inc counter => exact .inr (.inr (.inl ⟨counter, rfl, hanswer.1.symm⟩))

/-- A pause or a resume makes the consumer what it is to be, and is idle if it is so already. -/
theorem responds_flag {s s' : Shared} {e : Event} (h : Responds c s e s') :
    s'.controller.paused = (leaves? e).getD s.controller.paused ∧
      s'.pausedAgain + s'.resumedAgain = s.pausedAgain + s.resumedAgain +
        (decide (leaves? e = some s.controller.paused)).toNat := by
  rcases responds_cases h with ⟨rfl, rfl⟩ | ⟨rfl, rfl⟩ | ⟨counter, rfl, rfl⟩ | ⟨he, rfl⟩
  · cases hpaused : s.controller.paused <;>
      simp [Shared.pause, InMemoryPauseResumeController.isPaused, hpaused, leaves?]
    omega
  · cases hpaused : s.controller.paused <;>
      simp [Shared.resume, InMemoryPauseResumeController.isPaused, hpaused, leaves?]
    omega
  · exact ⟨rfl, rfl⟩
  · rw [he.2.2.2]
    exact ⟨rfl, rfl⟩

theorem responds_isPaused {s s' : Shared} {flag : Bool} (h : Responds c s ⟨.isPaused, flag⟩ s') :
    flag = s.controller.paused := by
  obtain ⟨depth, -, hanswer⟩ := h
  exact (Prod.mk.inj (Option.some.inj hanswer)).2.symm

variable {policy : WatermarkPolicy} {s : Pool Shared Unit ConsumerOp.Ans Unit}

theorem calls_counted (h : Reachable c policy s) (hquiet : Quiet s) :
    s.count (fun _ => pauses) = s.count (fun _ => counts .backpressurePauseEvents) ∧
      s.count (fun _ => resumes) = s.count (fun _ => counts .backpressureResumeEvents) := by
  have hcounted : ∀ t ∈ s.threads, Counted t.history := by
    intro t ht
    have hthread := Pool.Reachable.always h (fun _ => counted_maybeApplyBackpressure) ht
    obtain ⟨u, hu⟩ := hquiet t ht
    exact hthread.2 u hu
  exact ⟨Pool.count_congr fun t ht => (hcounted t ht).1,
    Pool.count_congr fun t ht => (hcounted t ht).2⟩

/-- The flag is up if it has been put up more often than down. -/
theorem flag_eq (h : Reachable c policy s) :
    s.shared.resumed + s.shared.controller.paused.toNat = s.shared.paused := by
  refine Pool.Reachable.invariant h
    (Q := fun s => s.resumed + s.controller.paused.toNat = s.paused) rfl ?_
  intro s e s' hresponds hs
  rcases responds_cases hresponds with ⟨-, rfl⟩ | ⟨-, rfl⟩ | ⟨counter, -, rfl⟩ | ⟨-, rfl⟩
  · cases hpaused : s.controller.paused <;>
      simp [Shared.pause, InMemoryPauseResumeController.isPaused, hpaused] at hs ⊢ <;> omega
  · cases hpaused : s.controller.paused <;>
      simp [Shared.resume, InMemoryPauseResumeController.isPaused, hpaused] at hs ⊢ <;> omega
  · exact hs
  · exact hs

theorem paused_eq (h : Reachable c policy s) :
    s.shared.paused + s.shared.pausedAgain = s.count fun _ => pauses := by
  refine Pool.Reachable.counter_eq h (fun s => s.paused + s.pausedAgain) rfl ?_
  intro s _ e s' hresponds
  rcases responds_cases hresponds with ⟨rfl, rfl⟩ | ⟨rfl, rfl⟩ | ⟨counter, rfl, rfl⟩ | ⟨he, rfl⟩
  · cases hpaused : s.controller.paused <;>
      simp [Shared.pause, InMemoryPauseResumeController.isPaused, hpaused, pauses] <;> omega
  · rfl
  · rfl
  · rw [he.1]
    rfl

theorem resumed_eq (h : Reachable c policy s) :
    s.shared.resumed + s.shared.resumedAgain = s.count fun _ => resumes := by
  refine Pool.Reachable.counter_eq h (fun s => s.resumed + s.resumedAgain) rfl ?_
  intro s _ e s' hresponds
  rcases responds_cases hresponds with ⟨rfl, rfl⟩ | ⟨rfl, rfl⟩ | ⟨counter, rfl, rfl⟩ | ⟨he, rfl⟩
  · rfl
  · cases hpaused : s.controller.paused <;>
      simp [Shared.resume, InMemoryPauseResumeController.isPaused, hpaused, resumes] <;> omega
  · rfl
  · rw [he.2.1]
    rfl

theorem counts_eq (h : Reachable c policy s) (counter : Counter) :
    s.shared.counts counter = s.count fun _ => counts counter := by
  refine Pool.Reachable.counter_eq h (fun s => s.counts counter) rfl ?_
  intro s _ e s' hresponds
  rcases responds_cases hresponds with ⟨rfl, rfl⟩ | ⟨rfl, rfl⟩ | ⟨counter', rfl, rfl⟩ | ⟨he, rfl⟩
  · rfl
  · rfl
  · by_cases heq : counter' = counter
    · subst heq
      simp [Shared.count, counts]
    · simp [Shared.count, counts, heq, Function.update_of_ne (Ne.symm heq)]
  · rw [he.2.2.1]
    rfl

/-- When no call is in progress, the counters are right exactly if no call has paused a paused
consumer or resumed a running one. -/
theorem bookkeeping_iff_again (h : Reachable c policy s) (hquiet : Quiet s) :
    Bookkeeping s.shared ↔ s.shared.pausedAgain = 0 ∧ s.shared.resumedAgain = 0 := by
  obtain ⟨hpauses, hresumes⟩ := calls_counted h hquiet
  have hflag := flag_eq h
  have hpaused := paused_eq h
  have hresumed := resumed_eq h
  have hpauseEvents := counts_eq h .backpressurePauseEvents
  have hresumeEvents := counts_eq h .backpressureResumeEvents
  constructor
  · rintro ⟨hbalance, hcount⟩
    cases hup : s.shared.controller.paused <;> simp [hup] at hflag hbalance <;> omega
  · rintro ⟨hpausedAgain, hresumedAgain⟩
    refine ⟨?_, by omega⟩
    cases hup : s.shared.controller.paused <;> simp [hup] at hflag ⊢ <;> omega

/-! ## Disturbed calls -/

@[simp] theorem left?_nil : left? [] = none := rfl

theorem left?_append (log log' : Log) : left? (log ++ log') = (left? log').or (left? log) := by
  simp [left?, List.getLast?_append]

theorem left?_cons_of_none {log : Log} {i : ℕ} {e : Event} (he : leaves? e = none) :
    left? ((i, e) :: log) = left? log := by
  simp [left?, he]

variable {log : Log}

theorem left?_concat (log : Log) (i : ℕ) (e : Event) :
    left? (log ++ [(i, e)]) = (leaves? e).or (left? log) := by
  rw [left?_append]
  cases he : leaves? e <;> simp [left?, he]

/-- **The flag** is what the last pause or resume has made of it. -/
theorem flag_eq_left? (h : Logged c policy log s) :
    s.shared.controller.paused = (left? log).getD false := by
  induction h with
  | start => rfl
  | call _ _ _ ih => exact ih
  | turn shared shared' pre post t o next a _ _ hresponds ih =>
      rw [left?_concat, Option.getD_or, ← ih]
      exact (responds_flag hresponds).1

/-- A call that looks at the flag sees what the others have left. -/
theorem seen_eq_left? (h : Logged c policy log s) {pre post : Log} {i : ℕ} {flag : Bool}
    (hlog : log = pre ++ (i, ⟨.isPaused, flag⟩) :: post) : flag = (left? pre).getD false := by
  induction h generalizing post with
  | start => simp at hlog
  | call _ _ _ ih => exact ih hlog
  | turn shared shared' before behind t o next a hlogged _ hresponds ih =>
      rcases List.eq_nil_or_concat post with rfl | ⟨post, x, rfl⟩
      · obtain ⟨rfl, hlast⟩ := List.append_inj' hlog rfl
        obtain ⟨-, he⟩ := Prod.mk.inj (List.cons.inj hlast).1
        rw [← flag_eq_left? hlogged]
        rw [he] at hresponds
        exact responds_isPaused hresponds
      · rw [List.concat_eq_append, ← List.cons_append, ← List.append_assoc] at hlog
        exact ih (List.append_inj' hlog rfl).1

/-- What the next event adds to the condition. -/
theorem undisturbed_concat {i : ℕ} {e : Event} : Undisturbed (log ++ [(i, e)]) ↔
    Undisturbed log ∧ ∀ (pre : Log) (flag : Bool) (mid : Log) (now : Bool),
      log = pre ++ (i, ⟨.isPaused, flag⟩) :: mid → (∀ x ∈ mid, x.1 ≠ i) →
        leaves? e = some now → left? mid ≠ some now := by
  constructor
  · intro h
    constructor
    · rintro pre j flag mid e' post now rfl hmid
      exact h pre j flag mid e' (post ++ [(i, e)]) now (by simp) hmid
    · rintro pre flag mid now rfl hmid
      exact h pre i flag mid e [] now (by simp) hmid
  · rintro ⟨hlog, hlast⟩ pre j flag mid e' post now heq hmid hnow
    rcases List.eq_nil_or_concat post with rfl | ⟨post, x, rfl⟩
    · obtain ⟨rfl, hlast'⟩ := List.append_inj' heq rfl
      obtain ⟨rfl, rfl⟩ := Prod.mk.inj (List.cons.inj hlast').1
      exact hlast pre flag mid now rfl hmid hnow
    · rw [List.concat_eq_append, ← List.cons_append, ← List.append_assoc] at heq
      exact hlog pre j flag mid e' post now (List.append_inj' heq rfl).1 hmid hnow

/-- Whoever pauses or resumes finds the consumer so already, exactly if the others have left
it so since it looked. -/
theorem disturbed_iff (h : Logged c policy log s) {i : ℕ} {done : List Event} {now : Bool}
    (hdone : Pool.doneBy i log = done ++ [⟨.isPaused, !now⟩]) :
    s.shared.controller.paused ≠ now ↔ ∀ (pre : Log) (flag : Bool) (mid : Log),
      log = pre ++ (i, ⟨.isPaused, flag⟩) :: mid → (∀ x ∈ mid, x.1 ≠ i) →
        left? mid ≠ some now := by
  have hleft : ∀ (pre : Log) (flag : Bool) (mid : Log),
      log = pre ++ (i, ⟨.isPaused, flag⟩) :: mid → (∀ x ∈ mid, x.1 ≠ i) →
        (s.shared.controller.paused ≠ now ↔ left? mid ≠ some now) := by
    rintro pre flag mid rfl hmid
    rw [Pool.doneBy_append, Pool.doneBy_cons_self, Pool.doneBy_eq_nil_iff.mpr hmid] at hdone
    obtain ⟨-, hread⟩ := List.append_inj' hdone rfl
    obtain rfl : flag = !now := by simpa using hread
    -- the flag it saw was up exactly if it is to be down now
    have hseen := seen_eq_left? h rfl
    rw [flag_eq_left? h, left?_append, left?_cons_of_none rfl, Option.getD_or, ← hseen]
    cases hmid : left? mid with
    | none => cases now <;> simp
    | some left => simp
  constructor
  · intro hne pre flag mid heq hmid
    exact (hleft pre flag mid heq hmid).mp hne
  · intro hall
    obtain ⟨pre, mid, heq, hmid⟩ := Pool.exists_of_doneBy_concat hdone
    exact (hleft pre _ mid heq hmid).mpr (hall pre _ mid heq hmid)

/-- **No call has been idle** exactly if none has been disturbed. -/
theorem again_eq_zero_iff (h : Logged c policy log s) :
    s.shared.pausedAgain + s.shared.resumedAgain = 0 ↔ Undisturbed log := by
  induction h with
  | start =>
      refine iff_of_true rfl ?_
      intro pre i flag mid e post now heq
      simp at heq
  | call _ _ _ ih => exact ih
  | @turn log shared shared' pre post t o next a hlogged hrest hresponds ih =>
      rw [undisturbed_concat, ← ih, (responds_flag hresponds).2]
      cases hnow : leaves? ⟨o, a⟩ with
      | none => simp
      | some now =>
          have hnext := Pool.Logged.turn shared shared' pre post t o next a hlogged hrest hresponds
          have hlooks := (Pool.Reachable.always hnext.reachable
            (fun _ => looks_maybeApplyBackpressure)
            (List.mem_append_right pre List.mem_cons_self)).1
          obtain ⟨done, hdone⟩ := hlooks t.history _ now rfl hnow
          have hhistory : t.history = Pool.doneBy pre.length log :=
            Pool.Logged.history_eq hlogged (by simp)
          have hdisturbed := disturbed_iff hlogged (hhistory.symm.trans hdone)
          rw [Nat.add_eq_zero_iff]
          refine and_congr_right fun _ => ?_
          have hidle : (decide (some now = some shared.controller.paused)).toNat = 0 ↔
              shared.controller.paused ≠ now := by
            simp [eq_comm]
          rw [hidle, hdisturbed]
          constructor
          · rintro hall pre flag mid _ heq hmid ⟨⟩
            exact hall pre flag mid heq hmid
          · intro hall pre flag mid heq hmid
            exact hall pre flag mid now heq hmid rfl

/-- **Bookkeeping**: when no call is in progress, the counters are right exactly if no call
has been disturbed. -/
theorem bookkeeping_iff (h : Logged c policy log s) (hquiet : Quiet s) :
    Bookkeeping s.shared ↔ Undisturbed log := by
  rw [bookkeeping_iff_again h.reachable hquiet, ← again_eq_zero_iff h]
  exact Nat.add_eq_zero_iff.symm

/-! ## Two calls at a full queue -/

def defaultPolicy : WatermarkPolicy :=
  newBackpressurePolicy defaultHighWatermarkRatio defaultLowWatermarkRatio

/-- The consumer of the defaults; its queue holds a hundred items. -/
def consumer : KafkaConsumer := {}

def call : Thread Unit ConsumerOp.Ans Unit :=
  ⟨(), [], (consumer.withPolicy defaultPolicy).maybeApplyBackpressure⟩

/-- A schedule of two calls, the queue being full all the time. -/
def twoCalls (schedule : List ℕ) : Option (Pool Shared Unit ConsumerOp.Ans Unit) :=
  Pool.turns (fun s o => s.answer 100 o) ⟨{}, [call, call]⟩ schedule

theorem reachable_twoCalls {schedule : List ℕ} {s : Pool Shared Unit ConsumerOp.Ans Unit}
    (hs : twoCalls schedule = some s) : Reachable consumer defaultPolicy s := by
  have hcalled : Reachable consumer defaultPolicy ⟨{}, [call, call]⟩ := by
    have hstart : Reachable consumer defaultPolicy ⟨{}, []⟩ := .start
    exact (hstart.step (.call () trivial)).step (.call () trivial)
  have hanswer : ∀ (s : Shared) (o : ConsumerOp) (r : Shared × o.Ans), s.answer 100 o = some r →
      Responds consumer s ⟨o, r.2⟩ r.1 := fun _ _ _ hr => ⟨100, le_refl _, hr⟩
  exact Pool.Reachable.turns hanswer hcalled hs

/-- One call after the other. -/
def oneByOne : List ℕ := List.replicate 5 0 ++ List.replicate 4 1

/-- Both calls find the consumer running before the first one pauses it. -/
def atOnce : List ℕ := List.replicate 3 0 ++ List.replicate 5 1 ++ List.replicate 2 0

theorem bookkeeping_iff_oneByOne : ∃ s log, twoCalls oneByOne = some s ∧
    Logged consumer defaultPolicy log s ∧ Quiet s ∧
    (Bookkeeping s.shared ↔ Undisturbed log) := by
  have hquiet : ((twoCalls oneByOne).any fun s => Quiet s) = true := by
    decide +kernel
  obtain ⟨s, hs, hquiet⟩ := (Option.any_eq_true _ _).mp hquiet
  obtain ⟨log, hlog⟩ := (reachable_twoCalls hs).logged
  exact ⟨s, log, hs, hlog, of_decide_eq_true hquiet,
    bookkeeping_iff hlog (of_decide_eq_true hquiet)⟩

/-- Two calls that overlap count two pauses of a consumer that has been paused once. -/
theorem overlapping_calls_count_twice : ∃ s, Reachable consumer defaultPolicy s ∧ Quiet s ∧
    s.shared.controller.paused = true ∧ s.shared.counts .backpressurePauseEvents = 2 ∧
    s.shared.counts .backpressureResumeEvents = 0 ∧ s.shared.paused = 1 ∧
    ¬ Bookkeeping s.shared := by
  have hquiet : ((twoCalls atOnce).any fun s => Quiet s ∧
      s.shared.controller.paused = true ∧ s.shared.counts .backpressurePauseEvents = 2 ∧
      s.shared.counts .backpressureResumeEvents = 0 ∧ s.shared.paused = 1) = true := by
    decide +kernel
  obtain ⟨s, hs, hall⟩ := (Option.any_eq_true _ _).mp hquiet
  obtain ⟨hquiet, hpaused, hpauses, hresumes, honce⟩ := of_decide_eq_true hall
  refine ⟨s, reachable_twoCalls hs, hquiet, hpaused, hpauses, hresumes, honce, ?_⟩
  rintro ⟨-, hcount⟩
  omega

end ConcurrentBackpressure

end KernelQ.Worker
