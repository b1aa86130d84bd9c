import Mathlib.Algebra.BigOperators.Group.List.Basic
import Mathlib.Data.List.Induction
import Mathlib.Data.List.Nodup

/-!
# Tallies

A tally is a dict of totals, in the order in which their keys have come. Adding to a key without
a total starts from 0. What a tally holds after any number of additions is a sum for each key
(`lookup_ofList`), and so it does not depend on the order of the additions.
-/

namespace KernelQ.Foundation

structure Tally (κ M : Type*) where
  entries : List (κ × M)
  nodup : (entries.map Prod.fst).Nodup

namespace Tally

variable {κ M N : Type*}

def empty : Tally κ M := ⟨[], List.nodup_nil⟩

def keys (t : Tally κ M) : List κ := t.entries.map Prod.fst

def values (t : Tally κ M) : List M := t.entries.map Prod.snd

/-- The dict with other values. -/
def mapValues (f : κ → M → N) (t : Tally κ M) : Tally κ N where
  entries := t.entries.map fun e => (e.1, f e.1 e.2)
  nodup := by
    rw [List.map_map]
    exact t.nodup

@[simp] theorem keys_empty : (empty : Tally κ M).keys = [] := rfl

@[simp] theorem values_empty : (empty : Tally κ M).values = [] := rfl

@[simp] theorem keys_mapValues (f : κ → M → N) (t : Tally κ M) :
    (t.mapValues f).keys = t.keys := by
  rw [keys, mapValues, List.map_map]
  rfl

variable [DecidableEq κ]

def lookup (t : Tally κ M) (k : κ) : Option M := t.entries.lookup k

@[simp] theorem lookup_empty (k : κ) : (empty : Tally κ M).lookup k = none := rfl

private theorem lookup_cons (e : κ × M) (es : List (κ × M)) (k : κ) :
    (e :: es).lookup k = if k = e.1 then some e.2 else es.lookup k := by
  rw [List.lookup_cons]
  by_cases h : k = e.1
  · rw [if_pos h, beq_iff_eq.mpr h]
  · rw [if_neg h, beq_eq_false_iff_ne.mpr h]

private theorem filter_key_eq_nil {l : List (κ × M)} {k : κ} (h : k ∉ l.map Prod.fst) :
    l.filter (fun e => decide (e.1 = k)) = [] := by
  apply List.filter_eq_nil_iff.mpr
  intro e he hk
  apply h
  rw [← of_decide_eq_true hk]
  exact List.mem_map_of_mem he

theorem mem_keys_iff {t : Tally κ M} {k : κ} : k ∈ t.keys ↔ ∃ x, t.lookup k = some x := by
  show k ∈ t.entries.map Prod.fst ↔ ∃ x, t.entries.lookup k = some x
  induction t.entries with
  | nil => simp
  | cons e es ih =>
      rw [List.map_cons, List.mem_cons, lookup_cons, ih]
      by_cases h : k = e.1
      · simp [h]
      · simp [h]

theorem lookup_mapValues (f : κ → M → N) (t : Tally κ M) (k : κ) :
    (t.mapValues f).lookup k = (t.lookup k).map (f k) := by
  show (t.entries.map fun e => (e.1, f e.1 e.2)).lookup k = (t.entries.lookup k).map (f k)
  induction t.entries with
  | nil => rfl
  | cons e es ih =>
      rw [List.map_cons, lookup_cons, lookup_cons, ih]
      by_cases h : k = e.1
      · rw [if_pos h, if_pos h, h]
        rfl
      · rw [if_neg h, if_neg h]

variable [AddCommMonoid M]

/-- `d.get(k, 0)`. -/
def get (t : Tally κ M) (k : κ) : M := (t.lookup k).getD 0

/-- The entries after an addition. -/
def addTo (k : κ) (x : M) : List (κ × M) → List (κ × M)
  | [] => [(k, 0 + x)]
  | e :: es => if k = e.1 then (e.1, e.2 + x) :: es else e :: addTo k x es

theorem map_fst_addTo (k : κ) (x : M) (es : List (κ × M)) :
    (addTo k x es).map Prod.fst =
      if k ∈ es.map Prod.fst then es.map Prod.fst else es.map Prod.fst ++ [k] := by
  induction es with
  | nil => rfl
  | cons e es ih =>
      rw [addTo]
      by_cases h : k = e.1
      · simp [h]
      · rw [if_neg h, List.map_cons, ih]
        by_cases hmem : k ∈ es.map Prod.fst
        · rw [if_pos hmem, List.map_cons, if_pos (List.mem_cons_of_mem _ hmem)]
        · rw [if_neg hmem, List.map_cons, if_neg (by simpa [h] using hmem), List.cons_append]

/-- `d[k] = d.get(k, 0) + x`. -/
def add (t : Tally κ M) (k : κ) (x : M) : Tally κ M where
  entries := addTo k x t.entries
  nodup := by
    rw [map_fst_addTo]
    split
    · exact t.nodup
    · rename_i h
      exact t.nodup.append (List.nodup_singleton k) (by simpa using h)

theorem keys_add (t : Tally κ M) (k : κ) (x : M) :
    (t.add k x).keys = if k ∈ t.keys then t.keys else t.keys ++ [k] :=
  map_fst_addTo k x t.entries

theorem lookup_addTo (k : κ) (x : M) (es : List (κ × M)) (k' : κ) :
    (addTo k x es).lookup k' =
      if k' = k then some ((es.lookup k).getD 0 + x) else es.lookup k' := by
  induction es with
  | nil =>
      rw [addTo, lookup_cons]
      rfl
  | cons e es ih =>
      rw [addTo]
      by_cases hkey : k = e.1
      · subst hkey
        rw [if_pos rfl, lookup_cons, lookup_cons, lookup_cons, if_pos rfl]
        by_cases h : k' = e.1
        · rw [if_pos h, if_pos h]
          rfl
        · rw [if_neg h, if_neg h, if_neg h]
      · rw [if_neg hkey, lookup_cons, lookup_cons, lookup_cons, if_neg hkey, ih]
        by_cases h : k' = k
        · rw [if_pos h, if_pos h, h, if_neg hkey]
        · rw [if_neg h, if_neg h]

/-- **An addition** changes the total of its key. -/
theorem lookup_add (t : Tally κ M) (k : κ) (x : M) (k' : κ) :
    (t.add k x).lookup k' = if k' = k then some (t.get k + x) else t.lookup k' :=
  lookup_addTo k x t.entries k'

theorem get_eq_of_lookup {t : Tally κ M} {k : κ} {x : M} (h : t.lookup k = some x) :
    t.get k = x := by
  rw [get, h]
  rfl

theorem get_add (t : Tally κ M) (k : κ) (x : M) (k' : κ) :
    (t.add k x).get k' = if k' = k then t.get k + x else t.get k' := by
  rw [get, lookup_add]
  split <;> rfl

theorem sum_values_add (t : Tally κ M) (k : κ) (x : M) :
    (t.add k x).values.sum = t.values.sum + x := by
  show ((addTo k x t.entries).map Prod.snd).sum = (t.entries.map Prod.snd).sum + x
  induction t.entries with
  | nil => simp [addTo]
  | cons e es ih =>
      rw [addTo]
      split
      · rw [List.map_cons, List.map_cons, List.sum_cons, List.sum_cons, add_right_comm]
      · rw [List.map_cons, List.map_cons, List.sum_cons, List.sum_cons, ih, add_assoc]

/-! ## Many additions -/

/-- The tally of a list of additions. -/
def ofList (l : List (κ × M)) : Tally κ M := l.foldl (fun t e => t.add e.1 e.2) empty

theorem ofList_concat (l : List (κ × M)) (e : κ × M) :
    ofList (l ++ [e]) = (ofList l).add e.1 e.2 := by
  rw [ofList, List.foldl_append]
  rfl

/-- The total of a key, if anything was added. -/
theorem lookup_ofList (l : List (κ × M)) (k : κ) :
    (ofList l).lookup k =
      if k ∈ l.map Prod.fst then
        some ((l.filter fun e => decide (e.1 = k)).map Prod.snd).sum
      else none := by
  induction l using List.reverseRecOn with
  | nil => rfl
  | append_singleton l e ih =>
      rw [ofList_concat, lookup_add, List.filter_append, List.map_append, List.map_append,
        List.sum_append, get]
      by_cases hkey : k = e.1
      · subst hkey
        rw [ih]
        by_cases hmem : e.1 ∈ l.map Prod.fst
        · simp [hmem]
        · simp [hmem, filter_key_eq_nil hmem]
      · rw [if_neg hkey, ih]
        have hmem : k ∉ [e].map Prod.fst := fun h => hkey (List.mem_singleton.mp h)
        rw [filter_key_eq_nil hmem, List.map_nil, List.sum_nil, add_zero]
        exact if_congr (by rw [List.mem_append, or_iff_left hmem]) rfl rfl

theorem get_ofList (l : List (κ × M)) (k : κ) :
    (ofList l).get k = ((l.filter fun e => decide (e.1 = k)).map Prod.snd).sum := by
  rw [get, lookup_ofList]
  split
  · rfl
  · rename_i h
    rw [filter_key_eq_nil h]
    rfl

theorem get_ofList_map {α : Type*} (key : α → κ) (x : α → M) (l : List α) (k : κ) :
    (ofList (l.map fun a => (key a, x a))).get k =
      ((l.filter fun a => decide (key a = k)).map x).sum := by
  rw [get_ofList, List.filter_map, List.map_map]
  rfl

theorem sum_values_ofList (l : List (κ × M)) :
    (ofList l).values.sum = (l.map Prod.snd).sum := by
  induction l using List.reverseRecOn with
  | nil => rfl
  | append_singleton l e ih => simp [ofList_concat, sum_values_add, ih]

/-- Keys come in the order of their first additions, whatever is added. -/
theorem keys_ofList_congr [AddCommMonoid N] {α : Type*} (key : α → κ) (x : α → M) (y : α → N)
    (l : List α) :
    (ofList (l.map fun a => (key a, x a))).keys = (ofList (l.map fun a => (key a, y a))).keys := by
  induction l using List.reverseRecOn with
  | nil => rfl
  | append_singleton l a ih =>
      rw [List.map_append, List.map_append, List.map_singleton, List.map_singleton, ofList_concat,
        ofList_concat, keys_add, keys_add, ih]

/-- **The order of the additions** makes no difference to the totals. -/
theorem lookup_ofList_perm {l l' : List (κ × M)} (h : l.Perm l') (k : κ) :
    (ofList l).lookup k = (ofList l').lookup k := by
  have hmem : k ∈ l.map Prod.fst ↔ k ∈ l'.map Prod.fst := (h.map Prod.fst).mem_iff
  have hsum : ((l.filter fun e => decide (e.1 = k)).map Prod.snd).sum =
      ((l'.filter fun e => decide (e.1 = k)).map Prod.snd).sum :=
    ((h.filter _).map Prod.snd).sum_eq
  rw [lookup_ofList, lookup_ofList, hsum]
  exact if_congr hmem rfl rfl

theorem mem_keys_ofList_iff {l : List (κ × M)} {k : κ} :
    k ∈ (ofList l).keys ↔ k ∈ l.map Prod.fst := by
  rw [mem_keys_iff, lookup_ofList]
  split
  · rename_i h
    exact iff_of_true ⟨_, rfl⟩ h
  · rename_i h
    exact iff_of_false (by simp) h

/-- The elements of a list, by their keys. -/
theorem sum_filter_mem {α : Type*} (key : α → κ) (x : α → M) {ks : List κ} (hks : ks.Nodup)
    (l : List α) :
    ((l.filter fun a => decide (key a ∈ ks)).map x).sum =
      (ks.map fun k => ((l.filter fun a => decide (key a = k)).map x).sum).sum := by
  induction ks with
  | nil => simp
  | cons k ks ih =>
      obtain ⟨hnew, hrest⟩ := List.nodup_cons.mp hks
      rw [List.map_cons, List.sum_cons, ← ih hrest]
      clear ih hks hrest
      simp only [List.mem_cons, Bool.decide_or]
      induction l with
      | nil => simp
      | cons a l ih =>
          by_cases hk : key a = k
          · have hmem : key a ∉ ks := hk ▸ hnew
            simp [hk, hnew, ih, add_assoc]
          · by_cases hmem : key a ∈ ks
            · simp [hk, hmem, ih, add_left_comm]
            · simp [hk, hmem, ih]

end Tally

end KernelQ.Foundation
