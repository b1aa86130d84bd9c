import Mathlib.Algebra.Order.Ring.Nat
import Mathlib.Data.Nat.Cast.Order.Ring
import Mathlib.Data.List.Basic

/-!
# Nearest ranks

In a sorted list, rank `r` is the element behind `r - 1` others. It is the nearest rank to
`x` if `x` is in `(r - 1, r]`: then at least `x` elements are at most that element, and
fewer than `x` are below it, however often it is repeated.
-/

namespace KernelQ.Foundation

namespace NearestRank

variable {α : Type*} [LinearOrder α] {l : List α} (hl : l.Pairwise (· ≤ ·))

include hl

theorem getElem_le {i j : ℕ} (hi : i < l.length) (hj : j < l.length) (hij : i ≤ j) :
    l[i] ≤ l[j] := by
  rcases Nat.lt_or_eq_of_le hij with h | rfl
  · exact List.pairwise_iff_getElem.mp hl i j _ hj h
  · exact le_refl _

/-- The elements up to a position are at most the one there. -/
theorem succ_le_countP {i : ℕ} (hi : i < l.length) :
    i + 1 ≤ l.countP fun w => decide (w ≤ l[i]) := by
  have hall : ∀ w ∈ l.take (i + 1), decide (w ≤ l[i]) = true := by
    intro w hw
    obtain ⟨j, hj, rfl⟩ := List.mem_take_iff_getElem.mp hw
    exact decide_eq_true (getElem_le hl _ hi (by omega))
  calc i + 1 = (l.take (i + 1)).length := by rw [List.length_take]; omega
    _ = (l.take (i + 1)).countP fun w => decide (w ≤ l[i]) := (List.countP_eq_length.mpr hall).symm
    _ ≤ l.countP fun w => decide (w ≤ l[i]) := (List.take_sublist _ _).countP_le

/-- Only elements before a position are below the one there. -/
theorem countP_le {i : ℕ} (hi : i < l.length) : (l.countP fun w => decide (w < l[i])) ≤ i := by
  have hnone : (l.drop i).countP (fun w => decide (w < l[i])) = 0 := by
    refine List.countP_eq_zero.mpr ?_
    intro w hw
    obtain ⟨j, hj, rfl⟩ := List.mem_drop_iff_getElem.mp hw
    have hle := getElem_le hl hi hj (Nat.le_add_left i j)
    simpa [Nat.add_comm] using hle
  have hsplit : ∀ p : α → Bool, l.countP p = (l.take i).countP p + (l.drop i).countP p := by
    intro p
    rw [← List.countP_append, List.take_append_drop]
  rw [hsplit, hnone, Nat.add_zero]
  exact List.countP_le_length.trans (by rw [List.length_take]; omega)

variable {K : Type*} [Semiring K] [LinearOrder K] [IsStrictOrderedRing K]

/-- **The nearest rank**: enough elements are at most its element, and too few below. -/
theorem nearest {x : K} {i : ℕ} (hi : i < l.length) (hlow : (i : K) < x) (hhigh : x ≤ (i + 1 : ℕ)) :
    x ≤ ((l.countP fun w => decide (w ≤ l[i]) : ℕ) : K) ∧
      ((l.countP fun w => decide (w < l[i]) : ℕ) : K) < x :=
  ⟨hhigh.trans (Nat.mono_cast (succ_le_countP hl hi)),
    (Nat.mono_cast (countP_le hl hi)).trans_lt hlow⟩

end NearestRank

end KernelQ.Foundation
