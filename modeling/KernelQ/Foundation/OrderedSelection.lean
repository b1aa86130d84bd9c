import Mathlib.Data.List.Sort

/-!
# `ORDER BY … LIMIT n` and stable client-side sorts

A sort key is a total preorder, so rows may tie. SQL leaves the order of tied
rows to the executor: `selectTop` takes that choice as an argument (`rank`),
and `exists_rank_sort_eq` shows that every order the statement allows is the
order of some rank. `sort` alone is a stable sort, as `list.sort` is.
-/

namespace KernelQ.Foundation

/-- What rows are ordered by: a total preorder. -/
structure SortKey (ρ : Type*) where
  le : ρ → ρ → Bool
  total : ∀ a b, le a b = true ∨ le b a = true
  trans : ∀ a b c, le a b = true → le b c = true → le a c = true

namespace SortKey

variable {ρ : Type*} (K : SortKey ρ)

/-- `ORDER BY f, g`. -/
def lexicographic {α β : Type*} [LinearOrder α] [LinearOrder β] (f : ρ → α) (g : ρ → β) :
    SortKey ρ where
  le a b := decide (f a < f b ∨ f a = f b ∧ g a ≤ g b)
  total a b := by
    simp only [decide_eq_true_eq]
    rcases lt_trichotomy (f a) (f b) with h | h | h
    · exact Or.inl (Or.inl h)
    · rcases le_total (g a) (g b) with hg | hg
      · exact Or.inl (Or.inr ⟨h, hg⟩)
      · exact Or.inr (Or.inr ⟨h.symm, hg⟩)
    · exact Or.inr (Or.inl h)
  trans a b c := by
    simp only [decide_eq_true_eq]
    rintro (h | ⟨h, hg⟩) (h' | ⟨h', hg'⟩)
    · exact Or.inl (h.trans h')
    · exact Or.inl (h'.symm ▸ h)
    · exact Or.inl (h ▸ h')
    · exact Or.inr ⟨h.trans h', hg.trans hg'⟩

/-- `ORDER BY f`. -/
def ascending {α : Type*} [LinearOrder α] (f : ρ → α) : SortKey ρ where
  le a b := decide (f a ≤ f b)
  total a b := by simpa using le_total (f a) (f b)
  trans a b c := by simpa using le_trans

def sort (l : List ρ) : List ρ :=
  l.insertionSort fun a b => K.le a b = true

/-- The executor's order on rows that `K` does not separate. -/
def thenBy (rank : ρ → ℕ) : SortKey ρ where
  le a b := K.le a b && (!K.le b a || decide (rank a ≤ rank b))
  total a b := by
    simp only [Bool.and_eq_true, Bool.or_eq_true, Bool.not_eq_true', decide_eq_true_eq]
    by_cases hab : K.le a b = true
    · by_cases hba : K.le b a = true
      · rcases le_total (rank a) (rank b) with hr | hr
        · exact Or.inl ⟨hab, Or.inr hr⟩
        · exact Or.inr ⟨hba, Or.inr hr⟩
      · exact Or.inl ⟨hab, Or.inl (by simpa using hba)⟩
    · exact Or.inr ⟨(K.total a b).resolve_left hab, Or.inl (by simpa using hab)⟩
  trans a b c := by
    simp only [Bool.and_eq_true, Bool.or_eq_true, Bool.not_eq_true', decide_eq_true_eq]
    rintro ⟨hab, hab'⟩ ⟨hbc, hbc'⟩
    refine ⟨K.trans a b c hab hbc, ?_⟩
    by_cases hca : K.le c a = true
    · -- all three rows tie, so the ranks decide
      have hba : K.le b a = true := K.trans b c a hbc hca
      have hcb : K.le c b = true := K.trans c a b hca hab
      have h₁ : rank a ≤ rank b := hab'.resolve_left (by simp [hba])
      have h₂ : rank b ≤ rank c := hbc'.resolve_left (by simp [hcb])
      exact Or.inr (h₁.trans h₂)
    · exact Or.inl (by simpa using hca)

/-- `SELECT … ORDER BY K LIMIT limit`. -/
def selectTop (rank : ρ → ℕ) (limit : ℕ) (l : List ρ) : List ρ :=
  ((K.thenBy rank).sort l).take limit

/-! ## The stable sort -/

theorem sort_perm (l : List ρ) : (K.sort l).Perm l :=
  List.perm_insertionSort _ l

@[simp] theorem mem_sort {l : List ρ} {r : ρ} : r ∈ K.sort l ↔ r ∈ l :=
  (K.sort_perm l).mem_iff

@[simp] theorem length_sort (l : List ρ) : (K.sort l).length = l.length :=
  (K.sort_perm l).length_eq

theorem sort_sorted (l : List ρ) : (K.sort l).Pairwise fun a b => K.le a b = true := by
  have : Std.Total fun a b => K.le a b = true := ⟨K.total⟩
  have : IsTrans ρ fun a b => K.le a b = true := ⟨K.trans⟩
  exact List.pairwise_insertionSort _ l

/-- A list that the key separates has one sorted arrangement. -/
theorem eq_sort_of_perm {l L : List ρ} (hperm : L.Perm l)
    (hsorted : L.Pairwise fun a b => K.le a b = true)
    (hseparated : ∀ a ∈ l, ∀ b ∈ l, K.le a b = true → K.le b a = true → a = b) :
    L = K.sort l := by
  refine List.Perm.eq_of_pairwise ?_ hsorted (K.sort_sorted l) (hperm.trans (K.sort_perm l).symm)
  intro a b ha hb
  exact hseparated a (hperm.mem_iff.mp ha) b (K.mem_sort.mp hb)

/-- A list that the key separates is sorted in one way. -/
theorem sort_eq_of_perm {l l' : List ρ} (hperm : l.Perm l')
    (hseparated : ∀ a ∈ l, ∀ b ∈ l, K.le a b = true → K.le b a = true → a = b) :
    K.sort l = K.sort l' :=
  (K.eq_sort_of_perm ((K.sort_perm l').trans hperm.symm) (K.sort_sorted l') hseparated).symm

theorem le_of_thenBy_le {rank : ρ → ℕ} {a b : ρ} (h : (K.thenBy rank).le a b = true) :
    K.le a b = true := by
  simp only [thenBy, Bool.and_eq_true] at h
  exact h.1

/-! ## The selection -/

variable {rank : ρ → ℕ} {limit : ℕ} {l : List ρ}

theorem mem_of_mem_selectTop {r : ρ} (h : r ∈ K.selectTop rank limit l) : r ∈ l :=
  (K.thenBy rank).mem_sort.mp (List.mem_of_mem_take h)

theorem selectTop_nodup (hl : l.Nodup) : (K.selectTop rank limit l).Nodup :=
  (((K.thenBy rank).sort_perm l).nodup_iff.mpr hl).sublist (List.take_sublist _ _)

theorem length_selectTop : (K.selectTop rank limit l).length = min limit l.length := by
  simp [selectTop]

theorem selectTop_sorted : (K.selectTop rank limit l).Pairwise fun a b => K.le a b = true :=
  (((K.thenBy rank).sort_sorted l).imp fun h => K.le_of_thenBy_le h).sublist
    (List.take_sublist _ _)

/-- A limit that is large enough leaves nobody behind. -/
theorem mem_selectTop_of_length_le (h : l.length ≤ limit) {r : ρ} (hr : r ∈ l) :
    r ∈ K.selectTop rank limit l := by
  rw [selectTop, List.take_of_length_le (by rwa [length_sort])]
  exact (K.thenBy rank).mem_sort.mpr hr

/-- **A row left behind ranks no better than a selected one.** -/
theorem le_of_not_mem_selectTop {r r' : ρ} (hr : r ∈ K.selectTop rank limit l) (hr' : r' ∈ l)
    (hnot : r' ∉ K.selectTop rank limit l) : K.le r r' = true := by
  have hsorted := (K.thenBy rank).sort_sorted l
  rw [← List.take_append_drop limit ((K.thenBy rank).sort l)] at hsorted
  have hdrop : r' ∈ ((K.thenBy rank).sort l).drop limit := by
    have hmem : r' ∈ (K.thenBy rank).sort l := (K.thenBy rank).mem_sort.mpr hr'
    rw [← List.take_append_drop limit ((K.thenBy rank).sort l), List.mem_append] at hmem
    exact hmem.resolve_left hnot
  exact K.le_of_thenBy_le ((List.pairwise_append.mp hsorted).2.2 r hr r' hdrop)

/-- **Every order the clause allows is the order of some rank**: ranks cover
all of the executor's choices. -/
theorem exists_rank_sort_eq {L : List ρ} (hl : l.Nodup) (hperm : L.Perm l)
    (hsorted : L.Pairwise fun a b => K.le a b = true) :
    ∃ rank : ρ → ℕ, (K.thenBy rank).sort l = L := by
  classical
  refine ⟨fun r => L.idxOf r, ?_⟩
  have hL : L.Nodup := hperm.nodup_iff.mpr hl
  have hrank : L.Pairwise fun a b => (K.thenBy fun r => L.idxOf r).le a b = true := by
    rw [List.pairwise_iff_getElem] at hsorted ⊢
    intro i j hi hj hij
    have hle := hsorted i j hi hj hij
    simp only [thenBy, Bool.and_eq_true, Bool.or_eq_true, decide_eq_true_eq]
    refine ⟨hle, Or.inr ?_⟩
    rw [hL.idxOf_getElem i hi, hL.idxOf_getElem j hj]
    exact hij.le
  refine ((K.thenBy _).eq_sort_of_perm hperm hrank ?_).symm
  intro a ha b hb hab hba
  simp only [thenBy, Bool.and_eq_true, Bool.or_eq_true, Bool.not_eq_true',
    decide_eq_true_eq] at hab hba
  have h₁ := hab.2.resolve_left (by simp [hba.1])
  have h₂ := hba.2.resolve_left (by simp [hab.1])
  exact (List.idxOf_inj (hperm.mem_iff.mpr ha)).mp (h₁.antisymm h₂)

end SortKey

end KernelQ.Foundation
