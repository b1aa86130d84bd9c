import KernelQ.Foundation.Rotation
import Mathlib.Data.List.Count
import Mathlib.Logic.Function.Basic

/-!
# Taking turns

A policy that serves one waiting unit at a time, from whoever has the next turn
in a lap and something waiting. The backlog may grow at any time. A party that is
never short gets its slots of every lap and no others (`count_served_eq`); one
that has something waiting is served as often as its slots come round, whatever
the others do (`le_count_served`).
-/

namespace KernelQ.Foundation.TurnTaking

structure Line (α : Type*) where
  lap : List α
  backlog : α → ℕ

inductive Event (α : Type*)
  | served (t : α)
  | idle
  | grown
  deriving DecidableEq

/-- Somebody was asked for: a unit was taken, or there was none. -/
def Event.taken {α : Type*} : Event α → Bool
  | grown => false
  | _ => true

variable {α : Type*} [DecidableEq α]

inductive Step : Line α → Event α → Line α → Prop
  | served {lap next : List α} {backlog : α → ℕ} {t : α}
      (h : Turn (fun u => 0 < backlog u) lap t next) :
      Step ⟨lap, backlog⟩ (.served t) ⟨next, Function.update backlog t (backlog t - 1)⟩
  | idle {lap : List α} {backlog : α → ℕ} (h : ∀ t ∈ lap, backlog t = 0) :
      Step ⟨lap, backlog⟩ .idle ⟨lap, backlog⟩
  | grown {lap : List α} {backlog backlog' : α → ℕ} (h : ∀ t, backlog t ≤ backlog' t) :
      Step ⟨lap, backlog⟩ .grown ⟨lap, backlog'⟩

inductive Trace : Line α → List (Event α) → Line α → Prop
  | nil (s : Line α) : Trace s [] s
  | cons {s t u : Line α} {e : Event α} {es : List (Event α)} (hstep : Step s e t)
      (hrest : Trace t es u) : Trace s (e :: es) u

variable {s s' : Line α} {es : List (Event α)} {t : α}

/-! ## Everybody has enough waiting -/

/-- The next `n` slots, lap after lap. -/
def ahead : ℕ → List α → List α
  | 0, _ => []
  | _, [] => []
  | n + 1, t :: rest => t :: ahead n (rest ++ [t])

omit [DecidableEq α] in
theorem ahead_add (as bs : List α) (n : ℕ) :
    ahead (as.length + n) (as ++ bs) = as ++ ahead n (bs ++ as) := by
  induction as generalizing bs with
  | nil => simp
  | cons t as ih =>
      rw [List.length_cons, Nat.add_right_comm, List.cons_append, ahead, List.append_assoc, ih,
        List.append_assoc]
      rfl

/-- **Every lap has its slots**: so many laps ahead, so many times as many slots. -/
theorem count_ahead (lap : List α) (k : ℕ) (t : α) :
    (ahead (k * lap.length) lap).count t = k * lap.count t := by
  induction k with
  | zero => rw [Nat.zero_mul, Nat.zero_mul, ahead, List.count_nil]
  | succ k ih =>
      have h := ahead_add lap [] (k * lap.length)
      rw [List.append_nil, List.nil_append] at h
      rw [Nat.succ_mul, Nat.add_comm, h, List.count_append, ih, Nat.succ_mul, Nat.add_comm]

omit [DecidableEq α] in
/-- Whoever is due has the turn at once. -/
theorem turn_of_due {due : α → Prop} {lap next rest : List α} {u : α}
    (h : Turn due lap t next) (hlap : lap = u :: rest) (hdue : due u) :
    t = u ∧ next = rest ++ [u] := by
  obtain ⟨skipped, rest', hsplit, hskipped, -, hnext⟩ := h
  rw [hlap] at hsplit
  cases skipped with
  | nil =>
      rw [List.nil_append, List.cons.injEq] at hsplit
      obtain ⟨rfl, rfl⟩ := hsplit
      exact ⟨rfl, by simp [hnext]⟩
  | cons v skipped =>
      rw [List.cons_append, List.cons.injEq] at hsplit
      obtain ⟨rfl, -⟩ := hsplit
      exact absurd hdue (hskipped u List.mem_cons_self)

/-- What is served is what the slots ahead say, as long as nobody runs short. -/
theorem served_eq_ahead (h : Trace s es s')
    (henough : ∀ t ∈ s.lap, (ahead (es.countP Event.taken) s.lap).count t ≤ s.backlog t)
    (hlap : s.lap ≠ []) :
    es.filter Event.taken = (ahead (es.countP Event.taken) s.lap).map Event.served := by
  induction h with
  | nil s => simp [ahead]
  | @cons s s₁ s' e es hstep hrest ih =>
      obtain ⟨u, rest, hcons⟩ := List.exists_cons_of_ne_nil hlap
      have hmem : u ∈ s.lap := hcons ▸ List.mem_cons_self
      cases hstep with
      | @served lap next backlog t hturn =>
          have hcount : (Event.served t :: es).countP Event.taken =
              es.countP Event.taken + 1 := List.countP_cons_of_pos rfl
          dsimp only at hcons henough hmem ⊢
          subst hcons
          rw [hcount, ahead] at henough ⊢
          have hdue : 0 < backlog u := by
            have := henough u hmem
            rw [List.count_cons_self] at this
            omega
          -- the head of the lap has enough, so nobody is passed over
          obtain ⟨rfl, rfl⟩ := turn_of_due hturn rfl hdue
          rw [List.filter_cons_of_pos rfl, List.map_cons]
          refine congrArg _ (ih ?_ (by simp))
          intro v hv
          have hv' : v ∈ t :: rest := by
            rw [List.mem_append, List.mem_singleton] at hv
            rw [List.mem_cons]
            exact hv.symm
          have := henough v hv'
          dsimp only
          by_cases hvt : v = t
          · subst hvt
            rw [List.count_cons_self] at this
            rw [Function.update_self]
            omega
          · rw [List.count_cons_of_ne (Ne.symm hvt)] at this
            rw [Function.update_of_ne hvt]
            exact this
      | @idle lap backlog hnone =>
          have := henough u hmem
          dsimp only at hcons this
          rw [hcons, List.countP_cons_of_pos rfl, ahead, List.count_cons_self,
            hnone u hmem] at this
          omega
      | @grown lap backlog backlog' hle =>
          rw [List.countP_cons_of_neg Bool.false_ne_true] at henough ⊢
          rw [List.filter_cons_of_neg Bool.false_ne_true]
          exact ih (fun v hv => (henough v hv).trans (hle v)) hlap

/-- **Shares are exact** over whole laps, from any position, if everybody has
enough waiting at the start. -/
theorem count_served_eq (h : Trace s es s') {k : ℕ} (hlap : s.lap ≠ [])
    (hn : es.countP Event.taken = k * s.lap.length)
    (henough : ∀ t ∈ s.lap, k * s.lap.count t ≤ s.backlog t) (t : α) :
    es.count (.served t) = k * s.lap.count t := by
  have hserved := served_eq_ahead h (by simpa only [hn, count_ahead] using henough) hlap
  have hinj : Function.Injective (Event.served : α → Event α) := by
    intro u v huv
    cases huv
    rfl
  calc es.count (.served t)
      = (es.filter Event.taken).count (.served t) := (List.count_filter rfl).symm
    _ = (ahead (k * s.lap.length) s.lap).count t := by
        rw [hserved, hn, List.count_map_of_injective _ _ hinj]
    _ = k * s.lap.count t := count_ahead s.lap k t

/-! ## Somebody has something waiting

The index of `t` in the lap is the number of slots that come before its next one.
-/

theorem idxOf_le (t : α) (lap : List α) : lap.idxOf t ≤ lap.length - lap.count t := by
  induction lap with
  | nil => exact le_rfl
  | cons u lap ih =>
      by_cases hu : u = t
      · subst hu
        rw [List.idxOf_cons_self]
        exact Nat.zero_le _
      · have hcount := List.count_le_length (a := t) (l := lap)
        rw [List.idxOf_cons_ne lap hu, List.count_cons_of_ne hu, List.length_cons]
        omega

omit [DecidableEq α] in
theorem perm_of_turn {due : α → Prop} {lap next : List α} {u : α} (h : Turn due lap u next) :
    next.Perm lap := by
  obtain ⟨skipped, rest, rfl, -, -, rfl⟩ := h
  have hfront : (rest ++ skipped ++ [u]).Perm (u :: (rest ++ skipped)) :=
    List.perm_append_singleton u _
  have hswap : (u :: (rest ++ skipped)).Perm (u :: (skipped ++ rest)) :=
    List.perm_append_comm.cons u
  exact (hfront.trans hswap).trans List.perm_middle.symm

/-- **A turn of another** brings the next slot of `t` closer. -/
theorem idxOf_of_turn {due : α → Prop} {lap next : List α} {u : α} (h : Turn due lap u next)
    (hdue : due t) (hmem : t ∈ lap) (hne : u ≠ t) : next.idxOf t < lap.idxOf t := by
  obtain ⟨skipped, rest, rfl, hskipped, -, rfl⟩ := h
  have hpassed : t ∉ skipped := fun ht => hskipped t ht hdue
  have hrest : t ∈ rest := by
    rcases List.mem_append.mp hmem with ht | ht
    · exact absurd ht hpassed
    · exact (List.mem_cons.mp ht).resolve_left (Ne.symm hne)
  rw [List.append_assoc, List.idxOf_append, if_pos hrest, List.idxOf_append, if_neg hpassed,
    List.idxOf_cons_ne rest hne]
  omega

/-- **Nobody starves**: a party with more than `i` units waiting has been served
`i + 1` times when its next slot and `i` of its longest waits have gone by. -/
theorem le_count_served (h : Trace s es s') {i : ℕ} (hi : i < s.backlog t) (hmem : t ∈ s.lap)
    (hn : s.lap.idxOf t + i * (s.lap.length - s.lap.count t + 1) < es.countP Event.taken) :
    i + 1 ≤ es.count (.served t) := by
  induction h generalizing i with
  | nil s => exact absurd hn (Nat.not_lt_zero _)
  | @cons s s₁ s' e es hstep hrest ih =>
      cases hstep with
      | @served lap next backlog u hturn =>
          rw [List.countP_cons_of_pos rfl] at hn
          have hperm := perm_of_turn hturn
          have hmem' : t ∈ next := hperm.mem_iff.mpr hmem
          have hlength := hperm.length_eq
          have hcount := hperm.count_eq t
          dsimp only at hi hn ih
          rw [hlength, hcount] at ih
          by_cases hu : u = t
          · -- it is served itself: its next slot is at most one longest wait away
            subst hu
            rw [List.count_cons_self]
            cases i with
            | zero => omega
            | succ i =>
                have hdist := idxOf_le u next
                rw [hlength, hcount] at hdist
                rw [Nat.succ_mul] at hn
                have := ih (i := i) (by rw [Function.update_self]; omega) hmem' (by omega)
                omega
          · -- it comes closer, as it is not passed over itself
            have hdist := idxOf_of_turn hturn (Nat.zero_lt_of_lt hi) hmem hu
            rw [List.count_cons_of_ne (by simpa using hu)]
            exact ih (by rwa [Function.update_of_ne (Ne.symm hu)]) hmem' (by omega)
      | @idle lap backlog hnone => exact absurd hi (by simp [hnone t hmem])
      | @grown lap backlog backlog' hle =>
          rw [List.countP_cons_of_neg Bool.false_ne_true] at hn
          rw [List.count_cons_of_ne (by simp)]
          exact ih (hi.trans_le (hle t)) hmem hn

end KernelQ.Foundation.TurnTaking
