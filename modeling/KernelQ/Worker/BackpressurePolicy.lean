import Mathlib.Data.Rat.Floor
import KernelQ.Foundation.Hysteresis
import KernelQ.Worker.KafkaConsumer

/-!
# Backpressure

`backpressure_policy.go` over exact ratios, `pause_resume_controller.go`, and the consumer
between them. Rounding the high watermark up and the low one down keeps the two bands apart
at every capacity (`apart`), so the consumer is a switch with hysteresis (`evaluate_eq`).
-/

namespace KernelQ.Worker

open KernelQ.Foundation

/-! ## The policy -/

def defaultHighWatermarkRatio : ℚ := 80 / 100

def defaultLowWatermarkRatio : ℚ := 50 / 100

def validWatermarkRatios (highRatio lowRatio : ℚ) : Bool :=
  if highRatio ≤ 0 ∨ 1 < highRatio then false
  else if lowRatio < 0 ∨ 1 ≤ lowRatio then false
  else if highRatio ≤ lowRatio then false
  else true

/-- A `BackpressurePolicy` of Go, by its ratios. -/
structure WatermarkPolicy where
  highWatermarkRatio : ℚ
  lowWatermarkRatio : ℚ
  valid : validWatermarkRatios highWatermarkRatio lowWatermarkRatio = true

def newBackpressurePolicy (highRatio lowRatio : ℚ) : WatermarkPolicy :=
  if h : validWatermarkRatios highRatio lowRatio = true then
    { highWatermarkRatio := highRatio
      lowWatermarkRatio := lowRatio
      valid := h }
  else
    { highWatermarkRatio := defaultHighWatermarkRatio
      lowWatermarkRatio := defaultLowWatermarkRatio
      valid := by decide +kernel }

namespace WatermarkPolicy

variable (policy : WatermarkPolicy)

def shouldPause (depth capacity : ℤ) : Bool :=
  if capacity ≤ 0 then false
  else decide (⌈(capacity : ℚ) * policy.highWatermarkRatio⌉ ≤ depth)

def shouldResume (depth capacity : ℤ) : Bool :=
  if capacity ≤ 0 then true
  else decide (depth ≤ ⌊(capacity : ℚ) * policy.lowWatermarkRatio⌋)

theorem bounds : policy.highWatermarkRatio ≤ 1 ∧ 0 ≤ policy.lowWatermarkRatio ∧
    policy.lowWatermarkRatio < policy.highWatermarkRatio := by
  have h := policy.valid
  unfold validWatermarkRatios at h
  split at h
  · cases h
  · split at h
    · cases h
    · split at h
      · cases h
      · rename_i hhigh hlow hlt
        exact ⟨not_lt.mp fun h => hhigh (.inr h), not_lt.mp fun h => hlow (.inl h),
          not_le.mp hlt⟩

section

variable {capacity : ℤ} (hcapacity : 1 ≤ capacity)

include hcapacity

theorem shouldPause_iff {depth : ℤ} : policy.shouldPause depth capacity = true ↔
    (capacity : ℚ) * policy.highWatermarkRatio ≤ depth := by
  rw [shouldPause, if_neg (by omega), decide_eq_true_iff, Int.ceil_le]

theorem shouldResume_iff {depth : ℤ} : policy.shouldResume depth capacity = true ↔
    (depth : ℚ) ≤ capacity * policy.lowWatermarkRatio := by
  rw [shouldResume, if_neg (by omega), decide_eq_true_iff, Int.le_floor]

/-- **The bands are apart.** -/
theorem apart {depth : ℤ} (hpause : policy.shouldPause depth capacity = true) :
    policy.shouldResume depth capacity = false := by
  rw [← Bool.not_eq_true, policy.shouldResume_iff hcapacity]
  intro hresume
  have hpause := (policy.shouldPause_iff hcapacity).mp hpause
  have hpos : (0 : ℚ) < capacity := by exact_mod_cast (show 0 < capacity by omega)
  have hlt := mul_lt_mul_of_pos_left policy.bounds.2.2 hpos
  linarith

theorem shouldPause_mono {depth depth' : ℤ} (hle : depth ≤ depth')
    (h : policy.shouldPause depth capacity = true) : policy.shouldPause depth' capacity = true := by
  rw [policy.shouldPause_iff hcapacity] at h ⊢
  exact h.trans (by exact_mod_cast hle)

theorem shouldResume_anti {depth depth' : ℤ} (hle : depth ≤ depth')
    (h : policy.shouldResume depth' capacity = true) :
    policy.shouldResume depth capacity = true := by
  rw [policy.shouldResume_iff hcapacity] at h ⊢
  exact le_trans (by exact_mod_cast hle) h

theorem shouldPause_full : policy.shouldPause capacity capacity = true := by
  rw [policy.shouldPause_iff hcapacity]
  have hpos : (0 : ℚ) ≤ capacity := by exact_mod_cast (show 0 ≤ capacity by omega)
  exact mul_le_of_le_one_right hpos policy.bounds.1

theorem shouldResume_empty : policy.shouldResume 0 capacity = true := by
  rw [policy.shouldResume_iff hcapacity]
  have hpos : (0 : ℚ) ≤ capacity := by exact_mod_cast (show 0 ≤ capacity by omega)
  simpa using mul_nonneg hpos policy.bounds.2.1

end

/-- What is expected of the bands at a capacity. -/
structure Bands (capacity : ℤ) : Prop where
  apart : ∀ depth, ¬ (policy.shouldPause depth capacity = true ∧
    policy.shouldResume depth capacity = true)
  shouldPause_mono : ∀ depth depth', depth ≤ depth' →
    policy.shouldPause depth capacity = true → policy.shouldPause depth' capacity = true
  shouldResume_anti : ∀ depth depth', depth ≤ depth' →
    policy.shouldResume depth' capacity = true → policy.shouldResume depth capacity = true
  full : policy.shouldPause capacity capacity = true
  empty : policy.shouldResume 0 capacity = true

theorem bands {capacity : ℤ} (hcapacity : 1 ≤ capacity) : policy.Bands capacity where
  apart depth h := by
    rw [policy.apart hcapacity h.1] at h
    cases h.2
  shouldPause_mono _ _ := policy.shouldPause_mono hcapacity
  shouldResume_anti _ _ := policy.shouldResume_anti hcapacity
  full := policy.shouldPause_full hcapacity
  empty := policy.shouldResume_empty hcapacity

/-- What a consumer asks the policy. -/
def toPolicy : BackpressurePolicy where
  shouldPause depth capacity := policy.shouldPause depth capacity
  shouldResume depth capacity := policy.shouldResume depth capacity

end WatermarkPolicy

/-! ## The controller -/

structure InMemoryPauseResumeController where
  paused : Bool := false

namespace InMemoryPauseResumeController

variable (controller : InMemoryPauseResumeController)

/-- Pausing again is a no-op. -/
def pause : InMemoryPauseResumeController × Option String :=
  if controller.paused then (controller, none) else ({ paused := true }, none)

/-- Resuming again is a no-op. -/
def resume : InMemoryPauseResumeController × Option String :=
  if !controller.paused then (controller, none) else ({ paused := false }, none)

def isPaused : Bool := controller.paused

@[simp] theorem pause_eq : controller.pause = ({ paused := true }, none) := by
  obtain ⟨paused⟩ := controller
  cases paused <;> rfl

@[simp] theorem resume_eq : controller.resume = ({ paused := false }, none) := by
  obtain ⟨paused⟩ := controller
  cases paused <;> rfl

end InMemoryPauseResumeController

/-! ## The consumer -/

/-- The surroundings of a consumer: the depth of its queue, its controller, the calls of it
(`true` is `Pause`), and the counters. -/
structure BackpressureWorld where
  depth : ℕ := 0
  controller : InMemoryPauseResumeController := {}
  calls : List Bool := []
  counts : Counter → ℕ := fun _ => 0

namespace BackpressureWorld

def step : BackpressureWorld → (o : ConsumerOp) → BackpressureWorld × o.Ans
  | w, .queueDepth => (w, w.depth)
  | w, .isPaused => (w, w.controller.isPaused)
  | w, .pause =>
      ({ w with
          controller := w.controller.pause.1
          calls := w.calls ++ [true] }, w.controller.pause.2)
  | w, .resume =>
      ({ w with
          controller := w.controller.resume.1
          calls := w.calls ++ [false] }, w.controller.resume.2)
  | w, .inc counter =>
      ({ w with counts := Function.update w.counts counter (w.counts counter + 1) }, ())
  | w, _ => (w, default)

/-- One evaluation, at a depth of the queue. -/
def evaluate (c : KafkaConsumer) (w : BackpressureWorld) (depth : ℕ) : BackpressureWorld :=
  (c.maybeApplyBackpressure.run step { w with depth := depth }).1

def evaluateAll (c : KafkaConsumer) (depths : List ℕ) : BackpressureWorld :=
  depths.foldl (evaluate c) {}

end BackpressureWorld

/-- The consumer with the policy and a controller. -/
def KafkaConsumer.withPolicy (c : KafkaConsumer) (policy : WatermarkPolicy) : KafkaConsumer :=
  { c with
    backpressurePolicy := some policy.toPolicy
    pauseResumeController := true }

/-- The policy of a consumer as a switch. -/
def WatermarkPolicy.switch (policy : WatermarkPolicy) (c : KafkaConsumer) : Hysteresis ℕ where
  rises depth := policy.shouldPause depth c.pool.queueCapacity
  falls depth := policy.shouldResume depth c.pool.queueCapacity
  apart _ := policy.apart (by exact_mod_cast c.pool.queueCapacity_pos)

theorem KafkaConsumer.maybeApplyBackpressure_withPolicy (c : KafkaConsumer)
    (policy : WatermarkPolicy) : (c.withPolicy policy).maybeApplyBackpressure =
      .op .queueDepth fun depth =>
        .op (.recordWorkQueueDepth depth) fun _ =>
          .op .isPaused fun paused =>
            if !paused && (policy.switch c).rises depth then
              .op .pause fun
                | some _ => .ret ()
                | none => .op (.inc .backpressurePauseEvents) .ret
            else
              .op .isPaused fun paused =>
                if paused && (policy.switch c).falls depth then
                  .op .resume fun
                    | some _ => .ret ()
                    | none => .op (.inc .backpressureResumeEvents) .ret
                else .ret () := rfl

namespace BackpressureWorld

variable (c : KafkaConsumer) (policy : WatermarkPolicy)

/-- **One evaluation** is one move of the switch, made by the call it stands for and
counted. -/
theorem evaluate_spec (w : BackpressureWorld) (depth : ℕ) :
    (evaluate (c.withPolicy policy) w depth).controller.paused =
        (policy.switch c).step w.controller.paused depth ∧
      (evaluate (c.withPolicy policy) w depth).calls =
        w.calls ++ ((policy.switch c).move w.controller.paused depth).toList ∧
      (evaluate (c.withPolicy policy) w depth).counts .backpressurePauseEvents =
        w.counts .backpressurePauseEvents +
          ((policy.switch c).move w.controller.paused depth).toList.count true ∧
      (evaluate (c.withPolicy policy) w depth).counts .backpressureResumeEvents =
        w.counts .backpressureResumeEvents +
          ((policy.switch c).move w.controller.paused depth).toList.count false := by
  obtain ⟨d, ⟨paused⟩, calls, counts⟩ := w
  rw [evaluate, c.maybeApplyBackpressure_withPolicy]
  simp only [Prog.run_op, step, InMemoryPauseResumeController.isPaused, Hysteresis.step,
    Hysteresis.move]
  rcases Bool.eq_false_or_eq_true (!paused && (policy.switch c).rises depth) with hrises | hrises
  · simp only [hrises, if_true, Prog.run_op, step, InMemoryPauseResumeController.pause_eq,
      Prog.run_ret]
    simp [Function.update]
  · simp only [hrises, Bool.false_eq_true, if_false, Prog.run_op, step,
      InMemoryPauseResumeController.isPaused]
    rcases Bool.eq_false_or_eq_true (paused && (policy.switch c).falls depth) with hfalls | hfalls
    · simp only [hfalls, if_true, Prog.run_op, step, InMemoryPauseResumeController.resume_eq,
        Prog.run_ret]
      simp [Function.update]
    · simp only [hfalls, Bool.false_eq_true, if_false, Prog.run_ret]
      simp

theorem evaluateAll_concat (depths : List ℕ) (depth : ℕ) :
    evaluateAll c (depths ++ [depth]) = evaluate c (evaluateAll c depths) depth := by
  rw [evaluateAll, List.foldl_append]
  rfl

/-- **A run of evaluations** is a run of the switch. -/
theorem evaluateAll_spec (depths : List ℕ) :
    (evaluateAll (c.withPolicy policy) depths).controller.paused =
        (policy.switch c).state false depths ∧
      (evaluateAll (c.withPolicy policy) depths).calls = (policy.switch c).moves false depths ∧
      (evaluateAll (c.withPolicy policy) depths).counts .backpressurePauseEvents =
        ((policy.switch c).moves false depths).count true ∧
      (evaluateAll (c.withPolicy policy) depths).counts .backpressureResumeEvents =
        ((policy.switch c).moves false depths).count false := by
  induction depths using List.reverseRecOn with
  | nil => exact ⟨rfl, rfl, rfl, rfl⟩
  | append_singleton depths depth ih =>
      obtain ⟨hpaused, hcalls, hpauses, hresumes⟩ := ih
      rw [evaluateAll_concat]
      obtain ⟨hpaused', hcalls', hpauses', hresumes'⟩ :=
        evaluate_spec c policy (evaluateAll (c.withPolicy policy) depths) depth
      rw [hpaused] at hpaused' hcalls' hpauses' hresumes'
      refine ⟨?_, ?_, ?_, ?_⟩
      · rw [hpaused', Hysteresis.state_concat]
      · rw [hcalls', hcalls, Hysteresis.moves_concat]
      · rw [hpauses', hpauses, Hysteresis.moves_concat, List.count_append]
      · rw [hresumes', hresumes, Hysteresis.moves_concat, List.count_append]

/-- The calls alternate, the first one is a `Pause`, and the counters tell whether the
consumer is paused. -/
structure Balanced (w : BackpressureWorld) : Prop where
  alternate : (false :: w.calls).IsChain (· ≠ ·)
  balance : (w.counts .backpressurePauseEvents : ℤ) - w.counts .backpressureResumeEvents =
    if w.controller.paused then 1 else 0

theorem evaluateAll_balanced (depths : List ℕ) :
    (evaluateAll (c.withPolicy policy) depths).Balanced := by
  obtain ⟨hpaused, hcalls, hpauses, hresumes⟩ := evaluateAll_spec c policy depths
  refine ⟨?_, ?_⟩
  · rw [hcalls]
    exact (policy.switch c).isChain_moves depths false
  · rw [hpauses, hresumes, hpaused]
    have hcount := (policy.switch c).count_moves false depths
    cases hstate : (policy.switch c).state false depths <;> simp [hstate] at hcount ⊢ <;> omega

end BackpressureWorld

open BackpressureWorld

/-- **Backpressure is hysteresis**: the bands are apart and cover both ends of the queue, and
a consumer that starts unpaused moves from one to the other. -/
theorem backpressure_sound (highRatio lowRatio : ℚ) :
    (∀ capacity : ℤ, 1 ≤ capacity → (newBackpressurePolicy highRatio lowRatio).Bands capacity) ∧
    ∀ (c : KafkaConsumer) (depths : List ℕ),
      (evaluateAll (c.withPolicy (newBackpressurePolicy highRatio lowRatio)) depths).Balanced ∧
      (evaluateAll (c.withPolicy (newBackpressurePolicy highRatio lowRatio))
        (depths ++ [0])).controller.paused = false ∧
      (evaluateAll (c.withPolicy (newBackpressurePolicy highRatio lowRatio))
        (depths ++ [c.pool.queueCapacity])).controller.paused = true := by
  refine ⟨fun capacity h => (newBackpressurePolicy highRatio lowRatio).bands h, ?_⟩
  intro c depths
  have hcapacity : (1 : ℤ) ≤ c.pool.queueCapacity := by exact_mod_cast c.pool.queueCapacity_pos
  obtain ⟨policy, hpolicy⟩ : ∃ policy, newBackpressurePolicy highRatio lowRatio = policy :=
    ⟨_, rfl⟩
  rw [hpolicy]
  refine ⟨evaluateAll_balanced c policy depths, ?_, ?_⟩
  · rw [(evaluateAll_spec c policy _).1, Hysteresis.state_concat]
    exact (policy.switch c).step_of_falls (policy.shouldResume_empty hcapacity) _
  · rw [(evaluateAll_spec c policy _).1, Hysteresis.state_concat]
    exact (policy.switch c).step_of_rises (policy.shouldPause_full hcapacity) _

/-- With room for a single item as well, and ratios that round to it. -/
theorem backpressure_sound_single : (newBackpressurePolicy 1 (9 / 10)).Bands 1 :=
  (backpressure_sound 1 (9 / 10)).1 1 le_rfl

end KernelQ.Worker
