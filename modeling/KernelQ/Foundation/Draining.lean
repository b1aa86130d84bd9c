import KernelQ.Foundation.KeyedTable
import KernelQ.Foundation.OrderedSelection
import Mathlib.Algebra.Order.Floor.Div

/-!
# Draining a list in order

A `Batch` is the best `limit` elements of a list, taken out of it. Batch after batch the
list is drained, in its order (`Drain.sorted`). The statement `UPDATE … WHERE key IN
(SELECT … ORDER BY … LIMIT …) RETURNING …` takes a batch, if the rows it rewrites are no
longer selected (`batch_of_update`).
-/

namespace KernelQ.Foundation

namespace SortKey

variable {ρ σ : Type*} (K : SortKey ρ)

/-- The best `limit` elements are taken out of `l`, in order. -/
structure Batch (limit : ℕ) (l taken rest : List ρ) : Prop where
  perm : (taken ++ rest).Perm l
  length : taken.length = min limit l.length
  sorted : taken.Pairwise fun a b => K.le a b = true
  best : ∀ a ∈ taken, ∀ b ∈ rest, K.le a b = true

/-- Batch `i` is taken out of `l i`. -/
def Drain (limit : ℕ) (l taken : ℕ → List ρ) : Prop :=
  ∀ i, K.Batch limit (l i) (taken i) (l (i + 1))

/-- No two elements tie. -/
def Separates (l : List ρ) : Prop :=
  ∀ a ∈ l, ∀ b ∈ l, K.le a b = true → K.le b a = true → a = b

variable {K} {limit : ℕ} {l taken : ℕ → List ρ}

/-- Without ties there is one sorted list. -/
theorem Separates.eq_sort {l L : List ρ} (h : K.Separates l) (hperm : L.Perm l)
    (hsorted : L.Pairwise fun a b => K.le a b = true) : L = K.sort l :=
  K.eq_sort_of_perm hperm hsorted h

theorem Separates.subset {l L : List ρ} (h : K.Separates l) (hL : ∀ a ∈ L, a ∈ l) :
    K.Separates L :=
  fun a ha b hb => h a (hL a ha) b (hL b hb)

/-- Elements with distinct keys do not tie, if ties have one key. -/
theorem separates_of_pairwise {κ : Type*} {f : ρ → κ} {l : List ρ}
    (hne : l.Pairwise fun a b => f a ≠ f b)
    (htie : ∀ a ∈ l, ∀ b ∈ l, K.le a b = true → K.le b a = true → f a = f b) :
    K.Separates l := by
  have hnodup : (l.map f).Nodup := List.pairwise_map.mpr hne
  intro a ha b hb hab hba
  exact List.inj_on_of_nodup_map hnodup ha hb (htie a ha b hb hab hba)

/-- Without ties the executor has no choice. -/
theorem Separates.selectTop_eq {l : List ρ} (h : K.Separates l) (rank : ρ → ℕ) (limit : ℕ) :
    K.selectTop rank limit l = (K.sort l).take limit := by
  rw [selectTop, h.eq_sort ((K.thenBy rank).sort_perm l)]
  exact ((K.thenBy rank).sort_sorted l).imp fun hle => K.le_of_thenBy_le hle

theorem sort_map {K' : SortKey σ} {f : ρ → σ} (h : ∀ a b, K'.le (f a) (f b) = K.le a b)
    (l : List ρ) : K'.sort (l.map f) = (K.sort l).map f := by
  refine (List.map_insertionSort _ _ f l ?_).symm
  intro a _ b _
  rw [h]

/-! ## Batch after batch -/

namespace Batch

variable {l taken rest : List ρ}

theorem mem_of_taken (h : K.Batch limit l taken rest) {a : ρ} (ha : a ∈ taken) : a ∈ l :=
  h.perm.mem_iff.mp (List.mem_append_left _ ha)

theorem mem_of_rest (h : K.Batch limit l taken rest) {a : ρ} (ha : a ∈ rest) : a ∈ l :=
  h.perm.mem_iff.mp (List.mem_append_right _ ha)

theorem length_rest (h : K.Batch limit l taken rest) : rest.length = l.length - limit := by
  have hsum := h.perm.length_eq
  rw [List.length_append, h.length] at hsum
  omega

/-- The elements of a batch in another order, if that is sorted as well. -/
theorem of_perm (h : K.Batch limit l taken rest) {taken' : List ρ} (hperm : taken'.Perm taken)
    (hsorted : taken'.Pairwise fun a b => K.le a b = true) : K.Batch limit l taken' rest where
  perm := (hperm.append_right rest).trans h.perm
  length := hperm.length_eq.trans h.length
  sorted := hsorted
  best a ha := h.best a (hperm.mem_iff.mp ha)

/-- Without ties the batch is the head of the sorted list. -/
theorem eq_take (h : K.Batch limit l taken rest) (hsep : K.Separates l) :
    taken = (K.sort l).take limit := by
  have hperm : (taken ++ K.sort rest).Perm l := ((K.sort_perm rest).append_left taken).trans h.perm
  have hsorted : (taken ++ K.sort rest).Pairwise fun a b => K.le a b = true := by
    apply List.pairwise_append.mpr
    exact ⟨h.sorted, K.sort_sorted rest, fun a ha b hb => h.best a ha b (K.mem_sort.mp hb)⟩
  have hlength := h.length
  rw [← hsep.eq_sort hperm hsorted]
  rcases Nat.le_total limit l.length with hle | hle
  · rw [min_eq_left hle] at hlength
    rw [← hlength, List.take_left]
  · have hrest : K.sort rest = [] := by
      rw [← List.length_eq_zero_iff, length_sort, h.length_rest]
      omega
    rw [hrest, List.append_nil, List.take_of_length_le]
    omega

end Batch

namespace Drain

theorem perm (h : K.Drain limit l taken) (n : ℕ) :
    ((List.range n).flatMap taken ++ l n).Perm (l 0) := by
  induction n with
  | zero => exact List.Perm.refl _
  | succ n ih =>
      rw [List.range_succ, List.flatMap_append, List.flatMap_singleton, List.append_assoc]
      exact ((h n).perm.append_left _).trans ih

theorem length_rest (h : K.Drain limit l taken) (n : ℕ) :
    (l n).length = (l 0).length - n * limit := by
  induction n with
  | zero => rw [Nat.zero_mul, Nat.sub_zero]
  | succ n ih => rw [(h n).length_rest, ih, Nat.succ_mul, Nat.sub_sub]

/-- The number of batches that take anything. -/
theorem taken_eq_nil_iff (h : K.Drain limit l taken) (hlimit : 0 < limit) {n : ℕ} :
    taken n = [] ↔ (l 0).length ⌈/⌉ limit ≤ n := by
  rw [ceilDiv_le_iff_le_mul hlimit, ← List.length_eq_zero_iff, (h n).length, h.length_rest,
    Nat.mul_comm limit n]
  omega

/-- **All batches together** are the list. -/
theorem flatMap_perm (h : K.Drain limit l taken) (hlimit : 0 < limit) :
    ((List.range ((l 0).length ⌈/⌉ limit)).flatMap taken).Perm (l 0) := by
  have hempty : l ((l 0).length ⌈/⌉ limit) = [] := by
    have hall := (ceilDiv_le_iff_le_mul hlimit).mp (le_refl ((l 0).length ⌈/⌉ limit))
    rw [← List.length_eq_zero_iff, h.length_rest, Nat.mul_comm]
    omega
  have hperm := h.perm ((l 0).length ⌈/⌉ limit)
  rwa [hempty, List.append_nil] at hperm

/-- **The batches come in order**: so far they are sorted, and nothing that is left precedes
them. -/
theorem sorted (h : K.Drain limit l taken) (n : ℕ) :
    ((List.range n).flatMap taken).Pairwise (fun a b => K.le a b = true) ∧
      ∀ a ∈ (List.range n).flatMap taken, ∀ b ∈ l n, K.le a b = true := by
  induction n with
  | zero => exact ⟨List.Pairwise.nil, fun a ha => nomatch ha⟩
  | succ n ih =>
      obtain ⟨hsorted, hbest⟩ := ih
      rw [List.range_succ, List.flatMap_append, List.flatMap_singleton]
      constructor
      · apply List.pairwise_append.mpr
        exact ⟨hsorted, (h n).sorted, fun a ha b hb => hbest a ha b ((h n).mem_of_taken hb)⟩
      · intro a ha b hb
        rcases List.mem_append.mp ha with ha | ha
        · exact hbest a ha b ((h n).mem_of_rest hb)
        · exact (h n).best a ha b hb

theorem flatMap_eq_sort (h : K.Drain limit l taken) (hlimit : 0 < limit)
    (hsep : K.Separates (l 0)) :
    (List.range ((l 0).length ⌈/⌉ limit)).flatMap taken = K.sort (l 0) :=
  hsep.eq_sort (h.flatMap_perm hlimit) (h.sorted _).1

end Drain

/-! ## A statement that takes a batch -/

variable (K) in
theorem batch_selectTop {rank : ρ → ℕ} {l : List ρ} {q : ρ → Bool} (hl : l.Nodup)
    (hq : ∀ r ∈ l, q r = true ↔ r ∈ K.selectTop rank limit l) :
    K.Batch limit l (K.selectTop rank limit l) (l.filter fun r => !q r) where
  perm := by
    have hsel : (K.selectTop rank limit l).Perm (l.filter q) := by
      refine (List.perm_ext_iff_of_nodup (K.selectTop_nodup hl) (hl.filter q)).mpr ?_
      intro r
      rw [List.mem_filter]
      constructor
      · intro hr
        have hmem := K.mem_of_mem_selectTop hr
        exact ⟨hmem, (hq r hmem).mpr hr⟩
      · rintro ⟨hmem, hr⟩
        exact (hq r hmem).mp hr
    exact (hsel.append_right _).trans (List.filter_append_perm q l)
  length := K.length_selectTop
  sorted := K.selectTop_sorted
  best a ha b hb := by
    obtain ⟨hmem, hnot⟩ := List.mem_filter.mp hb
    apply K.le_of_not_mem_selectTop ha hmem
    intro hsel
    rw [(hq b hmem).mpr hsel] at hnot
    cases hnot

variable {κ : Type*} {key : ρ → κ}

/-- Rows that are rewritten out of `p` leave the selection; the others stay as they are. -/
theorem filter_update (T : KeyedTable key) {p q : ρ → Bool} {u : SetClause key}
    (hleave : ∀ r, p (u.set r) = false) :
    (T.update q u).rows.filter p = (T.rows.filter p).filter fun r => !q r := by
  show (T.rows.map fun r => if q r then u.set r else r).filter p = _
  induction T.rows with
  | nil => rfl
  | cons r rows ih =>
      rw [List.map_cons, List.filter_cons, ih, List.filter_cons]
      by_cases hq : q r = true
      · by_cases hp : p r = true <;> simp [hq, hp, hleave]
      · by_cases hp : p r = true <;> simp [hq, hp]

/-- What comes back in another order are the rows in another order. -/
theorem exists_perm_map {f : ρ → σ} {l : List ρ} {m : List σ} (h : m.Perm (l.map f)) :
    ∃ l' : List ρ, l'.Perm l ∧ m = l'.map f := by
  have hrel : List.Forall₂ (fun b a => b = f a) (l.map f) l := by
    rw [List.forall₂_map_left_iff]
    exact List.forall₂_same.mpr fun _ _ => rfl
  obtain ⟨l', hm, hperm⟩ := List.perm_comp_forall₂ h hrel
  refine ⟨l', hperm, ?_⟩
  rw [← List.forall₂_eq_eq_eq, List.forall₂_map_right_iff]
  exact hm

/-- **An update of the best rows takes a batch**, whatever the order it returns them in. -/
theorem batch_of_update [DecidableEq κ] (T : KeyedTable key) {p : ρ → Bool} {u : SetClause key}
    (hleave : ∀ r, p (u.set r) = false) (hle : ∀ a b, K.le (u.set a) (u.set b) = K.le a b)
    {rank : ρ → ℕ} {sel : List ρ} (hsel : sel = K.selectTop rank limit (T.rows.filter p))
    {returned : List ρ}
    (hreturned : returned.Perm (T.affected (fun r => decide (key r ∈ sel.map key)) u)) :
    ∃ taken, K.Batch limit (T.rows.filter p) taken
        ((T.update (fun r => decide (key r ∈ sel.map key)) u).rows.filter p) ∧
      taken.Perm sel ∧ K.sort returned = taken.map u.set := by
  have hrows : ∀ r ∈ sel, r ∈ T.rows := by
    intro r hr
    rw [hsel] at hr
    exact List.mem_of_mem_filter (K.mem_of_mem_selectTop hr)
  have hnodup : sel.Nodup := hsel ▸ K.selectTop_nodup (T.nodup_rows.filter p)
  obtain ⟨taken, htaken, hsorted⟩ := exists_perm_map
    ((K.sort_perm returned).trans (hreturned.trans (T.affected_perm_of_keys hrows hnodup u)))
  refine ⟨taken, ?_, htaken, hsorted⟩
  have hbatch : K.Batch limit (T.rows.filter p) sel
      ((T.update (fun r => decide (key r ∈ sel.map key)) u).rows.filter p) := by
    rw [filter_update T hleave, hsel]
    apply K.batch_selectTop (T.nodup_rows.filter p)
    intro r hr
    rw [decide_eq_true_eq, ← hsel]
    exact T.key_mem_map_iff hrows (List.mem_of_mem_filter hr)
  apply hbatch.of_perm htaken
  have hpairs := K.sort_sorted returned
  rw [hsorted, List.pairwise_map] at hpairs
  simpa only [hle] using hpairs

end SortKey

end KernelQ.Foundation
