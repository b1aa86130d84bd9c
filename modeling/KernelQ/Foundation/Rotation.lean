import Mathlib.Data.List.Rotate

/-!
# Rotations

A cyclic list with a position in it. What matters of a position is the `lap`
that begins there. A walk along the slots stops at the first one that has
something to offer, and leaves the position behind it: it passes a `Turn`
(`walk_spec`).
-/

namespace KernelQ.Foundation

structure Rotation (α : Type*) where
  slots : List α
  pos : ℕ
  pos_lt : pos < slots.length

/-- The turn goes to `t`, and nothing before it is due; the next lap begins behind
it. -/
def Turn {α : Type*} (due : α → Prop) (lap : List α) (t : α) (next : List α) : Prop :=
  ∃ skipped rest, lap = skipped ++ t :: rest ∧ (∀ u ∈ skipped, ¬ due u) ∧ due t ∧
    next = rest ++ skipped ++ [t]

/-- **One party has the turn.** -/
theorem Turn.unique {α : Type*} {due : α → Prop} {lap next next' : List α} {t t' : α}
    (h : Turn due lap t next) (h' : Turn due lap t' next') : t = t' ∧ next = next' := by
  obtain ⟨skipped, rest, hlap, hskipped, ht, rfl⟩ := h
  obtain ⟨skipped', rest', hlap', hskipped', ht', rfl⟩ := h'
  have hsplit : skipped = skipped' ∧ t = t' ∧ rest = rest' := by
    rw [hlap] at hlap'
    clear hlap
    induction skipped generalizing skipped' with
    | nil => cases skipped' with
      | nil => simpa using hlap'
      | cons v skipped' =>
          obtain ⟨rfl, -⟩ := List.cons.inj hlap'
          exact absurd ht (hskipped' t List.mem_cons_self)
    | cons u skipped ih => cases skipped' with
      | nil =>
          obtain ⟨rfl, -⟩ := List.cons.inj hlap'
          exact absurd ht' (hskipped u List.mem_cons_self)
      | cons v skipped' =>
          obtain ⟨rfl, htail⟩ := List.cons.inj hlap'
          obtain ⟨rfl, heq⟩ := ih (fun w hw => hskipped w (List.mem_cons_of_mem u hw)) skipped'
            htail fun w hw => hskipped' w (List.mem_cons_of_mem u hw)
          exact ⟨rfl, heq⟩
  obtain ⟨rfl, rfl, rfl⟩ := hsplit
  exact ⟨rfl, rfl⟩

namespace Rotation

variable {α β : Type*} (r : Rotation α)

def start (slots : List α) (h : slots ≠ []) : Rotation α := ⟨slots, 0, List.length_pos_iff.mpr h⟩

def current : α := r.slots.get ⟨r.pos, r.pos_lt⟩

def advance : Rotation α :=
  ⟨r.slots, (r.pos + 1) % r.slots.length, Nat.mod_lt _ (Nat.zero_lt_of_lt r.pos_lt)⟩

/-- Look at `n` slots at most, and stop behind the first with an offer. -/
def walk (offer : α → Option β) : ℕ → Rotation α → Option β × Rotation α
  | 0, r => (none, r)
  | n + 1, r =>
      match offer r.current with
      | some b => (some b, r.advance)
      | none => walk offer n r.advance

/-- The slots in the order in which they come. -/
def lap : List α := r.slots.rotate r.pos

@[simp] theorem lap_start (slots : List α) (h : slots ≠ []) : (start slots h).lap = slots :=
  List.rotate_zero slots

theorem lap_perm : r.lap.Perm r.slots := List.rotate_perm r.slots r.pos

@[simp] theorem length_lap : r.lap.length = r.slots.length := r.lap_perm.length_eq

@[simp] theorem slots_advance : r.advance.slots = r.slots := rfl

theorem lap_eq_cons : ∃ rest, r.lap = r.current :: rest := by
  have hhead : r.lap.head? = some r.current := by
    rw [lap, List.head?_rotate r.pos_lt, List.getElem?_eq_getElem r.pos_lt]
    rfl
  obtain ⟨rest, hrest⟩ := List.head?_eq_some_iff.mp hhead
  exact ⟨rest, hrest⟩

theorem lap_advance {t : α} {rest : List α} (h : r.lap = t :: rest) :
    r.current = t ∧ r.advance.lap = rest ++ [t] := by
  obtain ⟨rest', hrest'⟩ := r.lap_eq_cons
  rw [h, List.cons.injEq] at hrest'
  obtain ⟨rfl, rfl⟩ := hrest'
  refine ⟨rfl, ?_⟩
  calc r.advance.lap = r.slots.rotate (r.pos + 1) := List.rotate_mod r.slots (r.pos + 1)
    _ = r.lap.rotate 1 := (List.rotate_rotate r.slots r.pos 1).symm
    _ = rest ++ [r.current] := by rw [h, List.rotate_cons_succ, List.rotate_zero]

/-- The walk, along slots that offer nothing up to one that does. -/
theorem walk_of_skipped {offer : α → Option β} {t : α} {b : β} (hb : offer t = some b)
    {skipped rest : List α} {n : ℕ} (hlap : r.lap = skipped ++ t :: rest)
    (hskipped : ∀ u ∈ skipped, offer u = none) (hn : skipped.length < n) :
    ∃ r', walk offer n r = (some b, r') ∧ r'.slots = r.slots ∧
      r'.lap = rest ++ skipped ++ [t] := by
  induction skipped generalizing r rest n with
  | nil =>
      obtain ⟨m, rfl⟩ := Nat.exists_eq_add_one_of_ne_zero (Nat.ne_zero_of_lt hn)
      obtain ⟨hcurrent, hnext⟩ := r.lap_advance hlap
      refine ⟨r.advance, ?_, rfl, by rw [hnext, List.append_nil]⟩
      simp only [walk, hcurrent, hb]
  | cons u skipped ih =>
      obtain ⟨m, rfl⟩ := Nat.exists_eq_add_one_of_ne_zero (Nat.ne_zero_of_lt hn)
      obtain ⟨hcurrent, hnext⟩ := r.lap_advance hlap
      have hnone : offer r.current = none := by
        rw [hcurrent]
        exact hskipped u List.mem_cons_self
      have hlap' : r.advance.lap = skipped ++ t :: (rest ++ [u]) := by
        rw [hnext]
        exact List.append_assoc skipped (t :: rest) [u]
      obtain ⟨r', hwalk, hslots, hend⟩ := ih r.advance hlap'
        (fun v hv => hskipped v (List.mem_cons_of_mem u hv)) (Nat.lt_of_succ_lt_succ hn)
      refine ⟨r', ?_, hslots, by simp [hend]⟩
      simp only [walk, hnone, hwalk]

/-- **A full lap finds whatever is due.** -/
theorem walk_spec {offer : α → Option β} (h : ∃ t ∈ r.slots, (offer t).isSome) :
    ∃ t b r', walk offer r.slots.length r = (some b, r') ∧ offer t = some b ∧
      r'.slots = r.slots ∧ Turn (fun u => (offer u).isSome) r.lap t r'.lap := by
  have hfind : (r.lap.find? fun u => (offer u).isSome).isSome := by
    obtain ⟨t, ht, hoffer⟩ := h
    exact List.find?_isSome.mpr ⟨t, r.lap_perm.mem_iff.mpr ht, hoffer⟩
  obtain ⟨t, ht⟩ := Option.isSome_iff_exists.mp hfind
  obtain ⟨hsome, skipped, rest, hlap, hskipped⟩ := List.find?_eq_some_iff_append.mp ht
  obtain ⟨b, hb⟩ := Option.isSome_iff_exists.mp hsome
  have hnone : ∀ u ∈ skipped, ¬ (offer u).isSome := fun u hu => by simpa using hskipped u hu
  have hlength : skipped.length < r.slots.length := by
    rw [← r.length_lap, hlap, List.length_append, List.length_cons]
    omega
  obtain ⟨r', hwalk, hslots, hend⟩ := r.walk_of_skipped hb hlap
    (fun u hu => Option.not_isSome_iff_eq_none.mp (hnone u hu)) hlength
  exact ⟨t, b, r', hwalk, hb, hslots, skipped, rest, hlap, hnone, hsome, hend⟩

end Rotation

end KernelQ.Foundation
