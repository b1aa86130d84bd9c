import Mathlib.Algebra.BigOperators.Group.List.Basic
import Mathlib.Algebra.Order.Ring.Int
import Mathlib.Data.List.Perm.Basic
import Mathlib.Tactic.Linarith
import Mathlib.Tactic.Ring

/-!
# The order in which a queue is served

A queue that is emptied one element at a time, by a rule for which element is next
(`Served`). The elements leave at successive times (`timed`). Sums over all of them do not
depend on the order; the elements of a class leave earliest, taken together, where they leave
first (`sum_ticks_le`).
-/

namespace KernelQ.Foundation

variable {α : Type*}

/-- `order` empties `l`, where `next` says which element may be next. -/
inductive Served (next : List α → α → Prop) : List α → List α → Prop
  | nil : Served next [] []
  | cons {l rest order : List α} {a : α} (hperm : l.Perm (a :: rest)) (hnext : next l a)
      (hrest : Served next rest order) : Served next l (a :: order)

namespace Served

variable {next : List α → α → Prop} {l order : List α}

theorem perm (h : Served next l order) : order.Perm l := by
  induction h with
  | nil => exact List.Perm.refl _
  | cons hperm _ _ ih => exact (ih.cons _).trans hperm.symm

/-- Served in the order of `r`, if the next is always one that comes before all others. -/
theorem pairwise {r : α → α → Prop} (hnext : ∀ l a, next l a → ∀ b ∈ l, r a b)
    (h : Served next l order) : order.Pairwise r := by
  induction h with
  | nil => exact List.Pairwise.nil
  | cons hperm hhead hrest ih =>
      refine List.pairwise_cons.mpr ⟨fun b hb => hnext _ _ hhead b ?_, ih⟩
      exact hperm.mem_iff.mpr (List.mem_cons_of_mem _ (hrest.perm.mem_iff.mp hb))

end Served

/-! ## Times -/

/-- The elements with the times at which they leave. -/
def timed (t : ℤ) : List α → List (α × ℤ)
  | [] => []
  | a :: l => (a, t) :: timed (t + 1) l

@[simp] theorem map_fst_timed (t : ℤ) (l : List α) : (timed t l).map Prod.fst = l := by
  induction l generalizing t with
  | nil => rfl
  | cons a l ih => rw [timed, List.map_cons, ih]

/-- `t + (t + 1) + …`, `n` times. -/
def ticksFrom (t : ℤ) : ℕ → ℤ
  | 0 => 0
  | n + 1 => t + ticksFrom (t + 1) n

theorem ticksFrom_mono {t u : ℤ} (h : t ≤ u) (n : ℕ) : ticksFrom t n ≤ ticksFrom u n := by
  induction n generalizing t u with
  | zero => exact le_rfl
  | succ n ih => exact add_le_add h (ih (add_le_add_left h 1))

/-- **A sum of waits** splits into the times and what does not depend on them. -/
theorem sum_waits (f : α → ℤ) (l : List (α × ℤ)) :
    (l.map fun e => e.2 - f e.1).sum = (l.map Prod.snd).sum - (l.map fun e => f e.1).sum := by
  induction l with
  | nil => rfl
  | cons e l ih =>
      rw [List.map_cons, List.sum_cons, ih, List.map_cons, List.sum_cons, List.map_cons,
        List.sum_cons]
      ring

/-! ## The elements of a class -/

variable (p : α → Bool)

/-- When the elements of the class leave. -/
def ticksOf (t : ℤ) (l : List α) : List ℤ := ((timed t l).filter fun e => p e.1).map Prod.snd

theorem ticksOf_cons (t : ℤ) (a : α) (l : List α) :
    ticksOf p t (a :: l) = if p a then t :: ticksOf p (t + 1) l else ticksOf p (t + 1) l := by
  rw [ticksOf, timed, List.filter_cons]
  split <;> rfl

/-- However they are served, they do not leave earlier than one after the other from the
start. -/
theorem ticksFrom_le_sum (t : ℤ) (l : List α) :
    ticksFrom t (l.countP p) ≤ (ticksOf p t l).sum := by
  induction l generalizing t with
  | nil => exact le_rfl
  | cons a l ih =>
      rw [ticksOf_cons]
      by_cases ha : p a = true
      · rw [if_pos ha, List.countP_cons_of_pos ha, ticksFrom, List.sum_cons]
        exact Int.add_le_add_left (ih (t + 1)) t
      · rw [if_neg ha, List.countP_cons_of_neg ha]
        exact (ticksFrom_mono (Int.le_add_one le_rfl) _).trans (ih (t + 1))

/-- Those that leave first leave one after the other from the start. -/
theorem sum_eq_ticksFrom {l : List α} (h : l.Pairwise fun a b => p b = true → p a = true)
    (t : ℤ) : (ticksOf p t l).sum = ticksFrom t (l.countP p) := by
  induction l generalizing t with
  | nil => rfl
  | cons a l ih =>
      obtain ⟨hfirst, hrest⟩ := List.pairwise_cons.mp h
      rw [ticksOf_cons]
      by_cases ha : p a = true
      · rw [if_pos ha, List.countP_cons_of_pos ha, List.sum_cons, ih hrest, ticksFrom]
      · -- nobody of the class is left
        have hnone : l.countP p = 0 :=
          List.countP_eq_zero.mpr fun b hb hpb => ha (hfirst b hb hpb)
        rw [if_neg ha, List.countP_cons_of_neg ha, ih hrest, hnone]
        rfl

/-- **To serve a class first is best for it**, among all orders of the same elements. -/
theorem sum_ticks_le {l l' : List α} (hperm : l.Perm l')
    (h : l.Pairwise fun a b => p b = true → p a = true) (t : ℤ) :
    (ticksOf p t l).sum ≤ (ticksOf p t l').sum := by
  rw [sum_eq_ticksFrom p h, hperm.countP_eq]
  exact ticksFrom_le_sum p t l'

end KernelQ.Foundation
