import KernelQ.ControlPlane.SchedulerComposed
import KernelQ.ControlPlane.SchedulerWeightedRr
import Mathlib.Algebra.BigOperators.Ring.List
import Mathlib.Tactic.Ring

/-!
# The reduction of the weights

`_build_weight_cycle` divides the weights by their greatest common divisor. The division is
exact, so no share is rounded away; what it leaves has no common divisor any more, so no
shorter lap has the same proportions (`length_dvd_of_sameProportions`). A multiple of the
weights is divided by that multiple as well, and makes the same scheduler.
-/

namespace KernelQ.ControlPlane

open KernelQ.Foundation

namespace WeightMap

/-- Every weight times `k`. -/
def scale (k : ℤ) (weights : WeightMap) : WeightMap where
  entries := weights.entries.map fun e => (e.1, k * e.2)
  nodup := by
    rw [List.map_map]
    exact weights.nodup

/-- Everybody has the same proportion of the slots of both laps. -/
def SameProportions (lap lap' : List String) : Prop :=
  ∀ t, lap.count t * lap'.length = lap'.count t * lap.length

variable {weights : WeightMap} {k : ℤ}

/-! ## Exact division -/

theorem gcd_mul_share {e : String × ℤ} (he : e ∈ weights.entries) :
    weights.gcd * weights.share e.2 = e.2 :=
  Int.mul_ediv_cancel' (gcd_dvd he)

theorem gcd_mul_length (h : weights.Valid) :
    weights.gcd * (buildWeightCycle weights).length = weights.values.sum := by
  rw [length_buildWeightCycle h, lapLength]
  apply Int.mul_ediv_cancel'
  apply List.dvd_sum
  intro w hw
  exact Multiset.gcd_dvd (Multiset.mem_coe.mpr hw)

/-! ## Minimality -/

/-- **A lap with the same proportions** is made of whole laps. -/
theorem length_dvd_of_sameProportions (h : weights.Valid) {lap : List String}
    (hlap : SameProportions lap (buildWeightCycle weights)) :
    (buildWeightCycle weights).length ∣ lap.length := by
  have hslots : ∀ e ∈ weights.entries,
      weights.gcd * (buildWeightCycle weights).length ∣ lap.length * e.2 := by
    intro e he
    refine ⟨lap.count e.1, ?_⟩
    have hcount : (lap.count e.1 : ℤ) * (buildWeightCycle weights).length =
        weights.share e.2 * lap.length := by
      rw [← count_buildWeightCycle h he]
      exact_mod_cast hlap e.1
    calc (lap.length : ℤ) * e.2 = lap.length * (weights.gcd * weights.share e.2) := by
          rw [gcd_mul_share he]
      _ = weights.gcd * (weights.share e.2 * lap.length) := by ring
      _ = weights.gcd * (buildWeightCycle weights).length * lap.count e.1 := by
          rw [← hcount]
          ring
  -- what divides the lap times each weight divides the lap times their common divisor
  have hgcd : weights.gcd * (buildWeightCycle weights).length ∣ lap.length * weights.gcd := by
    have hmap := Multiset.gcd_map_mul (lap.length : ℤ) (weights.values : Multiset ℤ)
    rw [Int.normalize_of_nonneg (Int.natCast_nonneg _)] at hmap
    rw [gcd, ← hmap]
    apply Multiset.dvd_gcd.mpr
    intro b hb
    obtain ⟨w, hw, rfl⟩ := Multiset.mem_map.mp hb
    obtain ⟨e, he, rfl⟩ := List.mem_map.mp (Multiset.mem_coe.mp hw)
    exact hslots e he
  rw [mul_comm (lap.length : ℤ)] at hgcd
  exact_mod_cast (mul_dvd_mul_iff_left (gcd_pos h).ne').mp hgcd

/-! ## Multiples of the weights -/

@[simp] theorem tenants_scale : (weights.scale k).tenants = weights.tenants := by
  rw [tenants, scale, List.map_map]
  rfl

theorem values_scale : (weights.scale k).values = weights.values.map (k * ·) := by
  rw [values, values, scale, List.map_map, List.map_map]
  rfl

theorem Valid.scale (h : weights.Valid) (hk : 1 ≤ k) : (weights.scale k).Valid where
  nonempty := by
    rw [WeightMap.scale, Ne, List.map_eq_nil_iff]
    exact h.nonempty
  positive := by
    intro e he
    obtain ⟨d, hd, rfl⟩ := List.mem_map.mp he
    exact mul_pos (by omega) (h.positive d hd)

theorem gcd_scale (hk : 1 ≤ k) : (weights.scale k).gcd = k * weights.gcd := by
  have hmap := Multiset.gcd_map_mul k (weights.values : Multiset ℤ)
  rw [Int.normalize_of_nonneg (by omega)] at hmap
  rw [gcd, values_scale, gcd, ← hmap, Multiset.map_coe]

theorem share_scale (hk : 1 ≤ k) (w : ℤ) : (weights.scale k).share (k * w) = weights.share w := by
  rw [share, gcd_scale hk, share]
  exact Int.mul_ediv_mul_of_pos _ _ (by omega)

/-- **A multiple of the weights** has the same cycle. -/
theorem buildWeightCycle_scale (h : weights.Valid) (hk : 1 ≤ k) :
    buildWeightCycle (weights.scale k) = buildWeightCycle weights := by
  rw [buildWeightCycle_eq (h.scale hk), buildWeightCycle_eq h]
  show (weights.entries.map fun e => (e.1, k * e.2)).flatMap _ = _
  rw [List.flatMap_map]
  apply List.flatMap_congr
  intro e _
  rw [share_scale hk]

end WeightMap

/-! ## The same schedulers -/

namespace TenantQueues

theorem empty_scale {J : Type} (k : ℤ) (weights : WeightMap) :
    (empty (weights.scale k) : TenantQueues J) = empty weights := by
  simp only [empty, WeightMap.tenants_scale]

end TenantQueues

theorem start_scale {weights : WeightMap} {k : ℤ} (h : weights.Valid) (hk : 1 ≤ k)
    (hne : buildWeightCycle (weights.scale k) ≠ []) (hne' : buildWeightCycle weights ≠ []) :
    Rotation.start (buildWeightCycle (weights.scale k)) hne =
      .start (buildWeightCycle weights) hne' := by
  simp only [WeightMap.buildWeightCycle_scale h hk]

namespace SchedulerWeightedRr.WeightedRoundRobinScheduler

variable (repr : String → String)

/-- What is seen of a scheduler: what it is built as, the replies to the calls, and the sizes of
its queues afterwards. -/
def observe (weights : WeightMap) (cs : List (SchedulerCall Job)) :
    Except PyException (List (SchedulerReply Job Unit) × List (String × ℕ)) :=
  (init repr weights).map fun s =>
    ((service repr).replies s cs, ((service repr).after s cs).queues.tenantQueueSizes)

variable {repr} {weights : WeightMap} {k : ℤ}

theorem init_scale (h : weights.Valid) (hk : 1 ≤ k) :
    init repr (weights.scale k) = init repr weights := by
  rw [init_eq_ok (initError_eq_none_iff.mpr h), init_eq_ok (initError_eq_none_iff.mpr (h.scale hk)),
    TenantQueues.empty_scale, start_scale h hk _ (WeightMap.buildWeightCycle_ne_nil h)]

end SchedulerWeightedRr.WeightedRoundRobinScheduler

namespace SchedulerComposed.ComposedScheduler

variable (repr : String → String)

/-- What is seen of a scheduler: what it is built as, the replies to the calls, and the sizes of
its queues and the room that is left afterwards. -/
def observe (capacity : ℤ) (weights : WeightMap) (cs : List (SchedulerCall Job)) :
    Except PyException (List (SchedulerReply Job EnqueueResult) × List (String × ℕ) × ℤ) :=
  (init repr capacity weights).map fun s =>
    ((service repr).replies s cs, ((service repr).after s cs).queues.tenantQueueSizes,
      ((service repr).after s cs).remainingCapacity)

variable {repr} {weights : WeightMap} {k capacity : ℤ}

theorem init_eq_error {e : PyException} (h : initError repr capacity weights = some e) :
    init repr capacity weights = .error e := by
  rw [init]
  split
  · rename_i e' he
    rw [h] at he
    exact congrArg Except.error (Option.some.inj he).symm
  · rename_i hnone
    rw [h] at hnone
    cases hnone

/-- A blank name is found at the same place. -/
theorem initError_scale (h : weights.Valid) (hk : 1 ≤ k) :
    initError repr capacity (weights.scale k) = initError repr capacity weights := by
  have hentry : ∀ e ∈ weights.entries, entryError repr (e.1, k * e.2) = entryError repr e := by
    intro e he
    have hpos : 0 < e.2 := h.positive e he
    have hscaled : 0 < k * e.2 := mul_pos (by omega) hpos
    rw [entryError, entryError, weightError_eq_none_iff.mpr hpos,
      weightError_eq_none_iff.mpr hscaled]
  have hentries : (weights.scale k).entries.findSome? (entryError repr) =
      weights.entries.findSome? (entryError repr) := by
    have hmap : weights.entries.map (entryError repr ∘ fun e => (e.1, k * e.2)) =
        weights.entries.map (entryError repr) := List.map_congr_left hentry
    rw [WeightMap.scale, List.findSome?_map, ← Function.id_comp (entryError repr ∘ _),
      ← List.findSome?_map, hmap, List.findSome?_map, Function.id_comp]
  rw [initError, initError, hentries, if_neg h.nonempty, if_neg (h.scale hk).nonempty]

theorem init_scale (h : weights.Valid) (hk : 1 ≤ k) :
    init repr capacity (weights.scale k) = init repr capacity weights := by
  have herror : initError repr capacity (weights.scale k) = initError repr capacity weights :=
    initError_scale h hk
  cases hinit : initError repr capacity weights with
  | some e =>
      rw [hinit] at herror
      rw [init_eq_error hinit, init_eq_error herror]
  | none =>
      rw [hinit] at herror
      rw [init_eq_ok hinit, init_eq_ok herror, TenantQueues.empty_scale,
        start_scale h hk _ (WeightMap.buildWeightCycle_ne_nil h)]

end SchedulerComposed.ComposedScheduler

/-- **The weight cycle is a reduction of the weights** `w`: it has `w / gcd` slots for every
tenant, without a remainder, it is the cycle of all multiples of the weights, and it is the
shortest of its proportions. -/
theorem weight_cycle_reduces {weights : WeightMap} (h : weights.Valid) :
    buildWeightCycle weights ≠ [] ∧
      (∀ e ∈ weights.entries, weights.gcd ∣ e.2 ∧ 0 < e.2 / weights.gcd ∧
        ((buildWeightCycle weights).count e.1 : ℤ) = e.2 / weights.gcd) ∧
      weights.gcd * (buildWeightCycle weights).length = weights.values.sum ∧
      (∀ k, 1 ≤ k → buildWeightCycle (weights.scale k) = buildWeightCycle weights ∧
        (∀ repr cs, SchedulerWeightedRr.WeightedRoundRobinScheduler.observe repr
            (weights.scale k) cs =
          SchedulerWeightedRr.WeightedRoundRobinScheduler.observe repr weights cs) ∧
        ∀ repr capacity cs, SchedulerComposed.ComposedScheduler.observe repr capacity
            (weights.scale k) cs =
          SchedulerComposed.ComposedScheduler.observe repr capacity weights cs) ∧
      ∀ lap, lap ≠ [] → WeightMap.SameProportions lap (buildWeightCycle weights) →
        (buildWeightCycle weights).length ≤ lap.length := by
  refine ⟨WeightMap.buildWeightCycle_ne_nil h, ?_, WeightMap.gcd_mul_length h, ?_, ?_⟩
  · intro e he
    exact ⟨WeightMap.gcd_dvd he, WeightMap.share_pos h he, WeightMap.count_buildWeightCycle h he⟩
  · intro k hk
    refine ⟨WeightMap.buildWeightCycle_scale h hk, ?_, ?_⟩
    · intro repr cs
      rw [SchedulerWeightedRr.WeightedRoundRobinScheduler.observe,
        SchedulerWeightedRr.WeightedRoundRobinScheduler.init_scale h hk]
      rfl
    · intro repr capacity cs
      rw [SchedulerComposed.ComposedScheduler.observe,
        SchedulerComposed.ComposedScheduler.init_scale h hk]
      rfl
  · intro lap hne hlap
    exact Nat.le_of_dvd (List.length_pos_iff.mpr hne)
      (WeightMap.length_dvd_of_sameProportions h hlap)

/-- Twice the weights of the source's own example, in another order. -/
def WeightMap.doubled : WeightMap := ⟨[("tenant-b", 2), ("tenant-a", 4)], by decide⟩

theorem weight_cycle_reduces_doubled : WeightMap.doubled.Valid ∧
    buildWeightCycle .doubled ≠ [] ∧
      buildWeightCycle (WeightMap.doubled.scale 3) = buildWeightCycle .doubled := by
  have hvalid : WeightMap.doubled.Valid := ⟨by decide, by decide⟩
  obtain ⟨hne, -, -, hscale, -⟩ := weight_cycle_reduces hvalid
  exact ⟨hvalid, hne, (hscale 3 (by decide)).1⟩

end KernelQ.ControlPlane
