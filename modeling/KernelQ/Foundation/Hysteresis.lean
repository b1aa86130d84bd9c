import Mathlib.Data.List.Chain

/-!
# Hysteresis

A switch that is turned on by some levels and off by others, with none in both bands. It is
only ever moved away from where it is, so its moves alternate, and what it has been turned
on more often than off is whether it is on.
-/

namespace KernelQ.Foundation

structure Hysteresis (L : Type) where
  rises : L → Bool
  falls : L → Bool
  apart : ∀ x, rises x = true → falls x = false

namespace Hysteresis

variable {L : Type} (H : Hysteresis L)

/-- What is done at a level: `some true` turns the switch on. -/
def move (on : Bool) (x : L) : Option Bool :=
  if !on && H.rises x then some true
  else if on && H.falls x then some false
  else none

def step (on : Bool) (x : L) : Bool := (H.move on x).getD on

/-- The switch behind a list of levels. -/
def state (on : Bool) (xs : List L) : Bool := xs.foldl H.step on

def moves : Bool → List L → List Bool
  | _, [] => []
  | on, x :: xs => (H.move on x).toList ++ moves (H.step on x) xs

theorem state_concat (on : Bool) (xs : List L) (x : L) :
    H.state on (xs ++ [x]) = H.step (H.state on xs) x := by
  rw [state, List.foldl_append]
  rfl

theorem moves_concat (xs : List L) (x : L) : ∀ on : Bool,
    H.moves on (xs ++ [x]) = H.moves on xs ++ (H.move (H.state on xs) x).toList := by
  induction xs with
  | nil =>
      intro on
      exact List.append_nil _
  | cons y xs ih =>
      intro on
      rw [List.cons_append, moves, ih, moves, List.append_assoc]
      rfl

theorem ne_of_move {on b : Bool} {x : L} (h : H.move on x = some b) : on ≠ b := by
  rw [move] at h
  split at h
  · cases h
    rintro rfl
    simp_all
  · split at h
    · cases h
      rintro rfl
      simp_all
    · cases h

/-- **The moves alternate**, and the first one is away from where the switch is. -/
theorem isChain_moves (xs : List L) : ∀ on : Bool, (on :: H.moves on xs).IsChain (· ≠ ·) := by
  induction xs with
  | nil => exact fun on => List.isChain_singleton on
  | cons x xs ih =>
      intro on
      rw [moves, step]
      cases h : H.move on x with
      | none => exact ih on
      | some b => exact List.isChain_cons_cons.mpr ⟨H.ne_of_move h, ih b⟩

/-- **Counting the moves** gives the switch. -/
theorem count_moves (on : Bool) (xs : List L) :
    (H.moves on xs).count true + on.toNat = (H.moves on xs).count false + (H.state on xs).toNat := by
  induction xs using List.reverseRecOn with
  | nil => rfl
  | append_singleton xs x ih =>
      rw [moves_concat, state_concat, step]
      cases h : H.move (H.state on xs) x with
      | none => simpa using ih
      | some b =>
          have hne := H.ne_of_move h
          cases b
          · rw [(Bool.not_eq_false _).mp hne] at ih
            simp at ih ⊢
            omega
          · rw [(Bool.not_eq_true _).mp hne] at ih
            simp at ih ⊢
            omega

theorem step_of_rises {x : L} (hx : H.rises x = true) (on : Bool) : H.step on x = true := by
  cases on
  · simp [step, move, hx]
  · simp [step, move, H.apart x hx]

theorem step_of_falls {x : L} (hx : H.falls x = true) (on : Bool) : H.step on x = false := by
  have hnot : H.rises x = false := by
    by_contra h
    have hfalls := H.apart x ((Bool.not_eq_false _).mp h)
    rw [hx] at hfalls
    cases hfalls
  cases on
  · simp [step, move, hnot]
  · simp [step, move, hx]

end Hysteresis

end KernelQ.Foundation
