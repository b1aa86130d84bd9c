import Mathlib.Data.Finset.Dedup
import Mathlib.Data.List.Lex
import KernelQ.Foundation.OrderedSelection
import KernelQ.Foundation.Tally
import KernelQ.Foundation.Text

/-!
# Labelled counters

`registry.go`: a counter keeps a total for each text that a set of labels is flattened to. Two
sets may have the same text, and then they share their total; where no separator is part of a
label they never do (`labelSet_eq_of_plain`).
-/

namespace KernelQ.Worker.Metrics

open KernelQ.Foundation

/-- A Go string: any bytes. -/
abbrev GoString := List UInt8

/-- Sums wrap around, as they do in Go. -/
instance instAddCommGroupInt64 : AddCommGroup Int64 where
  add_assoc := Int64.add_assoc
  zero_add := Int64.zero_add
  add_zero := Int64.add_zero
  add_comm := Int64.add_comm
  nsmul := nsmulRec
  zsmul := zsmulRec
  neg_add_cancel := Int64.add_left_neg
  sub_eq_add_neg := Int64.sub_eq_add_neg

/-- The pairs of a call; a name without a value has the empty one. -/
def labelItems : List GoString → List (GoString × GoString)
  | [] => []
  | [k] => [(k, [])]
  | k :: v :: pairs => (k, v) :: labelItems pairs

/-- `items[i].k < items[j].k`, byte by byte. -/
def byName : SortKey (GoString × GoString) := .ascending fun item => item.1.map UInt8.toNat

/-- `','`. -/
def comma : UInt8 := 44

/-- `'='`. -/
def equalsSign : UInt8 := 61

/-- What the builder is given for an item. -/
def itemText (item : GoString × GoString) : GoString := item.1 ++ equalsSign :: item.2

def labelsKey (pairs : List GoString) : GoString :=
  if pairs = [] then []
  else [comma].intercalate ((byName.sort (labelItems pairs)).map itemText)

structure Counter where
  values : Tally GoString Int64 := .empty

namespace Counter

/-- `none` is the nil pointer. -/
def add (c : Option Counter) (delta : Int64) (labelPairs : List GoString) : Option Counter :=
  match c with
  | none => none
  | some c =>
      if delta = 0 then some c else some ⟨c.values.add (labelsKey labelPairs) delta⟩

def inc (c : Option Counter) (labelPairs : List GoString) : Option Counter := add c 1 labelPairs

def get (c : Option Counter) (labelPairs : List GoString) : Int64 :=
  match c with
  | none => 0
  | some c => c.values.get (labelsKey labelPairs)

end Counter

/-! ## Label sets -/

def labelSet (pairs : List GoString) : Finset (GoString × GoString) := (labelItems pairs).toFinset

def DistinctNames (pairs : List GoString) : Prop := ((labelItems pairs).map Prod.fst).Nodup

/-- The text of a call's labels, with and without labels. -/
theorem labelsKey_eq (pairs : List GoString) :
    labelsKey pairs = [comma].intercalate ((byName.sort (labelItems pairs)).map itemText) := by
  rw [labelsKey]
  split
  · rename_i h
    rw [h]
    rfl
  · rfl

theorem perm_of_labelSet_eq {pairs pairs' : List GoString} (h : DistinctNames pairs)
    (h' : DistinctNames pairs') (hset : labelSet pairs = labelSet pairs') :
    (labelItems pairs).Perm (labelItems pairs') :=
  List.perm_of_nodup_nodup_toFinset_eq (List.Nodup.of_map _ h) (List.Nodup.of_map _ h') hset

/-- Names put the items in one order. -/
theorem sort_byName_eq {items items' : List (GoString × GoString)}
    (h : (items.map Prod.fst).Nodup) (hperm : items.Perm items') :
    byName.sort items = byName.sort items' := by
  apply byName.sort_eq_of_perm hperm
  intro a ha b hb hab hba
  have hbytes : a.1.map UInt8.toNat = b.1.map UInt8.toNat :=
    le_antisymm (of_decide_eq_true hab) (of_decide_eq_true hba)
  have hname : a.1 = b.1 := List.map_injective_iff.mpr (fun _ _ => UInt8.toNat_inj.mp) hbytes
  exact List.inj_on_of_nodup_map h ha hb hname

/-- **The order of the pairs** makes no difference. -/
theorem labelsKey_congr {pairs pairs' : List GoString} (h : DistinctNames pairs)
    (h' : DistinctNames pairs') (hset : labelSet pairs = labelSet pairs') :
    labelsKey pairs = labelsKey pairs' := by
  rw [labelsKey_eq, labelsKey_eq, sort_byName_eq h (perm_of_labelSet_eq h h' hset)]

/-- No separator is part of a label. -/
def Plain (pairs : List GoString) : Prop :=
  ∀ item ∈ labelItems pairs, equalsSign ∉ item.1 ∧ comma ∉ item.1 ∧ comma ∉ item.2

theorem itemText_inj {item item' : GoString × GoString} (h : equalsSign ∉ item.1)
    (h' : equalsSign ∉ item'.1) (htext : itemText item = itemText item') : item = item' := by
  obtain ⟨hname, hvalue⟩ := append_cons_inj h h' htext
  exact Prod.ext hname hvalue

/-- The pieces of a plain key. -/
theorem Plain.pieces {pairs : List GoString} (h : Plain pairs) :
    ∀ piece ∈ (byName.sort (labelItems pairs)).map itemText, piece ≠ [] ∧ comma ∉ piece := by
  intro piece hpiece
  obtain ⟨item, hitem, rfl⟩ := List.mem_map.mp hpiece
  obtain ⟨-, hname, hvalue⟩ := h item (byName.mem_sort.mp hitem)
  constructor
  · exact List.append_ne_nil_of_right_ne_nil _ (List.cons_ne_nil _ _)
  · rw [itemText, List.mem_append, List.mem_cons, not_or, not_or]
    exact ⟨hname, by decide, hvalue⟩

/-- **Plain label sets have different texts.** -/
theorem labelSet_eq_of_plain {pairs pairs' : List GoString} (h : Plain pairs) (h' : Plain pairs')
    (hkey : labelsKey pairs = labelsKey pairs') : labelSet pairs = labelSet pairs' := by
  have hsubset : ∀ {l l' : List GoString}, Plain l → Plain l' → labelsKey l = labelsKey l' →
      ∀ item ∈ labelSet l, item ∈ labelSet l' := by
    intro l l' hl hl' heq item hitem
    rw [labelSet, List.mem_toFinset] at hitem ⊢
    rw [labelsKey_eq, labelsKey_eq] at heq
    have hpieces := intercalate_inj hl.pieces hl'.pieces heq
    have hmem := List.mem_map_of_mem (f := itemText) (byName.mem_sort.mpr hitem)
    rw [hpieces] at hmem
    obtain ⟨item', hitem', htext⟩ := List.mem_map.mp hmem
    rw [byName.mem_sort] at hitem'
    rw [← itemText_inj (hl' item' hitem').1 (hl item hitem).1 htext]
    exact hitem'
  ext item
  exact ⟨hsubset h h' hkey item, hsubset h' h hkey.symm item⟩

/-! ## Counters -/

structure AddCall where
  delta : Int64
  labelPairs : List GoString

namespace Counter

/-- Calls of `Add`, one after another. -/
def addAll (c : Option Counter) (adds : List AddCall) : Option Counter :=
  adds.foldl (fun c a => add c a.delta a.labelPairs) c

/-- The sum of the deltas of these calls. -/
def sumOf (p : AddCall → Prop) [DecidablePred p] (adds : List AddCall) : Int64 :=
  ((adds.filter fun a => decide (p a)).map AddCall.delta).sum

theorem sumOf_cons (p : AddCall → Prop) [DecidablePred p] (a : AddCall) (adds : List AddCall) :
    sumOf p (a :: adds) = (if p a then a.delta else 0) + sumOf p adds := by
  rw [sumOf, List.filter_cons]
  by_cases h : p a
  · rw [if_pos (decide_eq_true h), if_pos h]
    rfl
  · rw [if_neg (by simpa using h), if_neg h, zero_add]
    rfl

/-- The calls that do not count are the others. -/
theorem sumOf_eq_add {p q : AddCall → Prop} [DecidablePred p] [DecidablePred q]
    {adds : List AddCall} (h : ∀ a ∈ adds, q a → p a) :
    sumOf p adds = sumOf q adds + sumOf (fun a => p a ∧ ¬ q a) adds := by
  induction adds with
  | nil => rfl
  | cons a adds ih =>
      have hrest := ih fun b hb => h b (List.mem_cons_of_mem a hb)
      rw [sumOf_cons, sumOf_cons, sumOf_cons, hrest]
      by_cases hq : q a
      · have hp : p a := h a List.mem_cons_self hq
        simp only [hp, hq, if_true, not_true, and_false, if_false, zero_add, add_assoc]
      · by_cases hp : p a
        · simp only [hp, hq, if_true, if_false, not_false_eq_true, and_self, zero_add]
          exact add_left_comm _ _ _
        · simp only [hp, hq, if_false, false_and, zero_add]

/-- **One call** adds to the total of its key. -/
theorem get_add (c : Counter) (a : AddCall) (labels : List GoString) :
    ∃ c', add (some c) a.delta a.labelPairs = some c' ∧
      get (some c') labels = get (some c) labels +
        if labelsKey a.labelPairs = labelsKey labels then a.delta else 0 := by
  rw [add]
  by_cases hzero : a.delta = 0
  · refine ⟨c, if_pos hzero, ?_⟩
    rw [hzero, ite_self, add_zero]
  · refine ⟨_, if_neg hzero, ?_⟩
    rw [get, Tally.get_add]
    by_cases hkey : labelsKey a.labelPairs = labelsKey labels
    · rw [if_pos hkey.symm, if_pos hkey, hkey]
      rfl
    · rw [if_neg fun h => hkey h.symm, if_neg hkey, add_zero]
      rfl

/-- **A total** is the sum of all that was added under its key. -/
theorem get_addAll (c : Counter) (adds : List AddCall) (labels : List GoString) :
    get (addAll (some c) adds) labels = get (some c) labels +
      sumOf (fun a => labelsKey a.labelPairs = labelsKey labels) adds := by
  induction adds generalizing c with
  | nil => exact (add_zero _).symm
  | cons a adds ih =>
      obtain ⟨c', hadd, hget⟩ := get_add c a labels
      rw [addAll, List.foldl_cons, hadd, sumOf_cons, ← add_assoc, ← hget]
      exact ih c'

theorem get_addAll_new (adds : List AddCall) (labels : List GoString) :
    get (addAll (some {}) adds) labels =
      sumOf (fun a => labelsKey a.labelPairs = labelsKey labels) adds := by
  rw [get_addAll]
  exact zero_add _

/-- What a counter returns: the deltas of the label set, and those that are mixed in. -/
theorem get_addAll_eq_add {adds : List AddCall} {labels : List GoString}
    (hadds : ∀ a ∈ adds, DistinctNames a.labelPairs) (hlabels : DistinctNames labels) :
    get (addAll (some {}) adds) labels =
      sumOf (fun a => labelSet a.labelPairs = labelSet labels) adds +
        sumOf (fun a => labelsKey a.labelPairs = labelsKey labels ∧
          ¬ labelSet a.labelPairs = labelSet labels) adds := by
  rw [get_addAll_new]
  apply sumOf_eq_add
  intro a ha hset
  exact labelsKey_congr (hadds a ha) hlabels hset

/-- Where no separator is part of a label, every label set has its own total. -/
theorem get_eq_sum_of_plain {adds : List AddCall} {labels : List GoString}
    (hadds : ∀ a ∈ adds, DistinctNames a.labelPairs ∧ Plain a.labelPairs)
    (hlabels : DistinctNames labels ∧ Plain labels) :
    get (addAll (some {}) adds) labels =
      sumOf (fun a => labelSet a.labelPairs = labelSet labels) adds := by
  have hnone : adds.filter (fun a => decide (labelsKey a.labelPairs = labelsKey labels ∧
      ¬ labelSet a.labelPairs = labelSet labels)) = [] := by
    apply List.filter_eq_nil_iff.mpr
    intro a ha hmixed
    obtain ⟨hkey, hset⟩ := of_decide_eq_true hmixed
    exact hset (labelSet_eq_of_plain (hadds a ha).2 hlabels.2 hkey)
  rw [get_addAll_eq_add (fun a ha => (hadds a ha).1) hlabels.1]
  conv_rhs => rw [← add_zero (sumOf _ adds)]
  apply congrArg
  rw [sumOf, hnone]
  rfl

/-- **A counter keeps label sets apart** exactly if what is added to other sets, flattened to the
same text, adds up to 0. -/
theorem get_eq_sum_iff {adds : List AddCall} {labels : List GoString}
    (hadds : ∀ a ∈ adds, DistinctNames a.labelPairs) (hlabels : DistinctNames labels) :
    get (addAll (some {}) adds) labels =
        sumOf (fun a => labelSet a.labelPairs = labelSet labels) adds ↔
      sumOf (fun a => labelsKey a.labelPairs = labelsKey labels ∧
        ¬ labelSet a.labelPairs = labelSet labels) adds = 0 := by
  rw [get_addAll_eq_add hadds hlabels, add_eq_left]

/-- `a=1` and `b=2`, and then `a=3`. -/
def orderedAdds : List AddCall := [⟨5, [[97], [49], [98], [50]]⟩, ⟨7, [[97], [51]]⟩]

/-- The one set asked for in the other order, while there is another. -/
theorem get_eq_sum_iff_orders :
    get (addAll (some {}) orderedAdds) [[98], [50], [97], [49]] = 5 ∧
      (get (addAll (some {}) orderedAdds) [[98], [50], [97], [49]] =
          sumOf (fun a => labelSet a.labelPairs = labelSet [[98], [50], [97], [49]]) orderedAdds ↔
        sumOf (fun a => labelsKey a.labelPairs = labelsKey [[98], [50], [97], [49]] ∧
          ¬ labelSet a.labelPairs = labelSet [[98], [50], [97], [49]]) orderedAdds = 0) := by
  have hadds : ∀ a ∈ orderedAdds, DistinctNames a.labelPairs ∧ Plain a.labelPairs := by
    unfold DistinctNames Plain
    decide +kernel
  have hlabels : DistinctNames [[98], [50], [97], [49]] ∧ Plain [[98], [50], [97], [49]] := by
    unfold DistinctNames Plain
    decide +kernel
  refine ⟨?_, get_eq_sum_iff (fun a ha => (hadds a ha).1) hlabels.1⟩
  rw [get_eq_sum_of_plain hadds hlabels]
  decide +kernel

/-- The set whose one value is `1,b=2`, and the set `a=1,b=2`. -/
def mixedAdds : List AddCall :=
  [⟨1, [[97], [49, 44, 98, 61, 50]]⟩, ⟨2, [[97], [49], [98], [50]]⟩]

/-- One `Add` for each, and each set has the sum of both. -/
theorem label_sets_mixed :
    (∀ a ∈ mixedAdds, DistinctNames a.labelPairs) ∧
    get (addAll (some {}) mixedAdds) [[97], [49], [98], [50]] = 3 ∧
    sumOf (fun a => labelSet a.labelPairs = labelSet [[97], [49], [98], [50]]) mixedAdds = 2 := by
  refine ⟨?_, ?_, ?_⟩
  · intro a ha
    rcases List.mem_cons.mp ha with rfl | ha
    · show ([[97]] : List GoString).Nodup
      decide
    · rw [List.mem_singleton.mp ha]
      show ([[97], [98]] : List GoString).Nodup
      decide
  · decide +kernel
  · decide +kernel

end Counter

end KernelQ.Worker.Metrics
