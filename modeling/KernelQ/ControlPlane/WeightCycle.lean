import KernelQ.ControlPlane.IdempotencyKeys
import KernelQ.Foundation.Rotation
import Mathlib.Algebra.BigOperators.Group.List.Basic
import Mathlib.Algebra.GCDMonoid.Multiset
import Mathlib.Algebra.GCDMonoid.Nat

/-!
# The weight cycle

`_gcd_of_weights` and `_build_weight_cycle`, of which `scheduler_weighted_rr.py`
and `scheduler_composed.py` have a copy each. The weights have passed the checks
of a constructor.
-/

namespace KernelQ.ControlPlane

open KernelQ.Foundation

/-- A `dict[str, int]`, in the order of insertion. -/
structure WeightMap where
  entries : List (String × ℤ)
  nodup : (entries.map Prod.fst).Nodup

namespace WeightMap

variable (weights : WeightMap)

def tenants : List String := weights.entries.map Prod.fst

def values : List ℤ := weights.entries.map Prod.snd

structure Valid : Prop where
  nonempty : weights.entries ≠ []
  positive : ∀ e ∈ weights.entries, 0 < e.2

/-- The greatest common divisor of the weights. -/
def gcd : ℤ := (weights.values : Multiset ℤ).gcd

/-- The slots that a weight stands for in one lap. -/
def share (w : ℤ) : ℤ := w / weights.gcd

/-- The slots of one lap. -/
def lapLength : ℤ := weights.values.sum / weights.gcd

end WeightMap

/-- `reduce(math.gcd, values)`, which raises for an empty list. -/
def gcdOfWeights : List ℤ → Option ℤ
  | [] => none
  | w :: ws => some (ws.foldl (fun g w => (Int.gcd g w : ℤ)) w)

def buildWeightCycle (weights : WeightMap) : List String :=
  match gcdOfWeights weights.values with
  | none => []
  | some g => weights.entries.flatMap fun e => List.replicate (e.2.fdiv g).toNat e.1

/-- The weights of the source's own example. -/
def WeightMap.twoToOne : WeightMap := ⟨[("tenant-a", 2), ("tenant-b", 1)], by decide⟩

example : buildWeightCycle .twoToOne = ["tenant-a", "tenant-a", "tenant-b"] := by decide +kernel

/-! ## The greatest common divisor -/

theorem foldl_gcd_eq (ws : List ℤ) (g : ℤ) (hg : 0 ≤ g) :
    ws.foldl (fun g w => (Int.gcd g w : ℤ)) g = (g ::ₘ (ws : Multiset ℤ)).gcd := by
  induction ws generalizing g with
  | nil => simp [Int.normalize_of_nonneg hg]
  | cons w ws ih =>
      rw [List.foldl_cons, ih _ (Int.natCast_nonneg _), ← Multiset.cons_coe, Multiset.gcd_cons,
        Multiset.gcd_cons, Multiset.gcd_cons, Int.coe_gcd, gcd_assoc]

namespace WeightMap

variable {weights : WeightMap}

theorem gcdOfWeights_eq (h : weights.Valid) : gcdOfWeights weights.values = some weights.gcd := by
  obtain ⟨e, es, hentries⟩ := List.exists_cons_of_ne_nil h.nonempty
  have hvalues : weights.values = e.2 :: es.map Prod.snd := by rw [values, hentries, List.map_cons]
  have hpos : 0 ≤ e.2 := (h.positive e (by rw [hentries]; exact List.mem_cons_self)).le
  rw [gcd, hvalues, gcdOfWeights, foldl_gcd_eq _ _ hpos]
  rfl

theorem gcd_dvd {e : String × ℤ} (he : e ∈ weights.entries) : weights.gcd ∣ e.2 :=
  Multiset.gcd_dvd (Multiset.mem_coe.mpr (List.mem_map_of_mem he))

theorem gcd_pos (h : weights.Valid) : 0 < weights.gcd := by
  obtain ⟨e, es, hentries⟩ := List.exists_cons_of_ne_nil h.nonempty
  have he : e ∈ weights.entries := by rw [hentries]; exact List.mem_cons_self
  have hnonneg : 0 ≤ weights.gcd := by
    rw [gcd, ← Multiset.normalize_gcd]
    exact Int.nonneg_of_normalize_eq_self (normalize_idem _)
  refine lt_of_le_of_ne hnonneg fun hzero => ?_
  have hdvd := gcd_dvd he
  rw [← hzero, zero_dvd_iff] at hdvd
  exact absurd hdvd (h.positive e he).ne'

/-- Every tenant has a slot, since the division is exact. -/
theorem share_pos (h : weights.Valid) {e : String × ℤ} (he : e ∈ weights.entries) :
    0 < weights.share e.2 :=
  Int.ediv_pos_of_pos_of_dvd (h.positive e he) (gcd_pos h).le (gcd_dvd he)

/-! ## The slots of a lap -/

theorem buildWeightCycle_eq (h : weights.Valid) :
    buildWeightCycle weights =
      weights.entries.flatMap fun e => List.replicate (weights.share e.2).toNat e.1 := by
  rw [buildWeightCycle, gcdOfWeights_eq h]
  simp only [share, Int.fdiv_eq_ediv_of_nonneg _ (gcd_pos h).le]

theorem mem_slots_iff {n : ℤ → ℕ} {es : List (String × ℤ)} (hn : ∀ e ∈ es, 0 < n e.2)
    {t : String} :
    t ∈ es.flatMap (fun e => List.replicate (n e.2) e.1) ↔ t ∈ es.map Prod.fst := by
  simp only [List.mem_flatMap, List.mem_replicate, List.mem_map]
  constructor
  · rintro ⟨e, he, -, rfl⟩
    exact ⟨e, he, rfl⟩
  · rintro ⟨e, he, rfl⟩
    exact ⟨e, he, (hn e he).ne', rfl⟩

theorem count_slots (n : ℤ → ℕ) {es : List (String × ℤ)} (hnodup : (es.map Prod.fst).Nodup)
    {e : String × ℤ} (he : e ∈ es) :
    (es.flatMap fun e => List.replicate (n e.2) e.1).count e.1 = n e.2 := by
  induction es with
  | nil => cases he
  | cons d es ih =>
      rw [List.map_cons, List.nodup_cons] at hnodup
      rw [List.flatMap_cons, List.count_append]
      rcases List.mem_cons.mp he with rfl | he
      · have hnone : e.1 ∉ es.flatMap fun e => List.replicate (n e.2) e.1 := by
          intro hmem
          obtain ⟨d, hd, hslot⟩ := List.mem_flatMap.mp hmem
          rw [(List.mem_replicate.mp hslot).2] at hnodup
          exact hnodup.1 (List.mem_map_of_mem hd)
        rw [List.count_replicate_self, List.count_eq_zero_of_not_mem hnone, Nat.add_zero]
      · have hne : e.1 ∉ List.replicate (n d.2) d.1 := by
          intro hmem
          rw [← (List.mem_replicate.mp hmem).2] at hnodup
          exact hnodup.1 (List.mem_map_of_mem he)
        rw [List.count_eq_zero_of_not_mem hne, Nat.zero_add, ih hnodup.2 he]

/-- **A tenant has its share of the slots.** -/
theorem count_buildWeightCycle (h : weights.Valid) {e : String × ℤ} (he : e ∈ weights.entries) :
    ((buildWeightCycle weights).count e.1 : ℤ) = weights.share e.2 := by
  rw [buildWeightCycle_eq h, count_slots (fun w => (weights.share w).toNat) weights.nodup he]
  exact Int.toNat_of_nonneg (share_pos h he).le

theorem mem_buildWeightCycle_iff (h : weights.Valid) {t : String} :
    t ∈ buildWeightCycle weights ↔ t ∈ weights.tenants := by
  rw [buildWeightCycle_eq h]
  apply mem_slots_iff (n := fun w => (weights.share w).toNat)
  intro e he
  exact Int.lt_toNat.mpr (share_pos h he)

theorem buildWeightCycle_ne_nil (h : weights.Valid) : buildWeightCycle weights ≠ [] := by
  obtain ⟨e, es, hentries⟩ := List.exists_cons_of_ne_nil h.nonempty
  have hmem : e.1 ∈ weights.tenants := by
    rw [tenants, hentries]
    exact List.mem_cons_self
  exact List.ne_nil_of_mem ((mem_buildWeightCycle_iff h).mpr hmem)

/-- **A lap has the shares of all tenants**, and the division is exact again. -/
theorem length_buildWeightCycle (h : weights.Valid) :
    ((buildWeightCycle weights).length : ℤ) = weights.lapLength := by
  have hsum : ∀ es : List (String × ℤ), (∀ e ∈ es, e ∈ weights.entries) →
      ((es.flatMap fun e => List.replicate (weights.share e.2).toNat e.1).length : ℤ) *
        weights.gcd = (es.map Prod.snd).sum := by
    intro es hes
    induction es with
    | nil => simp
    | cons e es ih =>
        have he := hes e List.mem_cons_self
        have hshare : weights.share e.2 * weights.gcd = e.2 := Int.ediv_mul_cancel (gcd_dvd he)
        rw [List.flatMap_cons, List.length_append, List.length_replicate, Nat.cast_add, add_mul,
          Int.toNat_of_nonneg (share_pos h he).le, hshare, List.map_cons, List.sum_cons,
          ih fun d hd => hes d (List.mem_cons_of_mem e hd)]
  rw [buildWeightCycle_eq h, lapLength, values, ← hsum _ fun e he => he,
    Int.mul_ediv_cancel _ (gcd_pos h).ne']

end WeightMap

end KernelQ.ControlPlane
