import Mathlib.Order.Lattice

/-!
# Binary heaps

`heapq`: a heap is an array in which the children of position `p` are `2 * p + 1` and
`2 * p + 2`, and no entry is smaller than its parent. Comparing may raise. Where it never
does, and gives a linear order, `heappush` adds an entry and `heappop` takes a smallest one
(`heappush_spec`, `heappop_spec`).
-/

namespace KernelQ.Foundation.BinaryHeap

def IsChild (p c : ℕ) : Prop :=
  c = 2 * p + 1 ∨ c = 2 * p + 2

def parent (c : ℕ) : ℕ :=
  (c - 1) / 2

theorem parent_lt {c : ℕ} (h : 0 < c) : parent c < c := by
  unfold parent
  omega

theorem isChild_parent {c : ℕ} (h : 0 < c) : IsChild (parent c) c := by
  unfold IsChild parent
  omega

theorem IsChild.eq {p q c : ℕ} (h : IsChild p c) (h' : IsChild q c) : p = q := by
  unfold IsChild at h h'
  omega

theorem IsChild.lt {p c : ℕ} (h : IsChild p c) : p < c := by
  unfold IsChild at h
  omega

/-! ## The functions of `heapq` -/

section Functions

variable {α ε : Type*} (lt : α → α → Except ε Bool)

/-- `_siftdown`: an entry moves towards the root, past its greater ancestors. -/
def siftdown (heap : Array α) (pos : ℕ) (hpos : pos < heap.size) : Except ε (Array α) :=
  if h : 0 < pos then
    have hparent : parent pos < heap.size := Nat.lt_trans (parent_lt h) hpos
    match lt heap[pos] heap[parent pos] with
    | .error e => .error e
    | .ok true =>
        siftdown (heap.swap pos (parent pos)) (parent pos) (by rwa [Array.size_swap])
    | .ok false => .ok heap
  else .ok heap
termination_by pos
decreasing_by exact parent_lt h

/-- The smaller child, and the right one if it is not greater. -/
def smallerChild (heap : Array α) (pos : ℕ) (h : 2 * pos + 1 < heap.size) :
    Except ε { c : ℕ // c < heap.size ∧ IsChild pos c } :=
  if hright : 2 * pos + 2 < heap.size then
    match lt heap[2 * pos + 1] heap[2 * pos + 2] with
    | .error e => .error e
    | .ok true => .ok ⟨2 * pos + 1, h, Or.inl rfl⟩
    | .ok false => .ok ⟨2 * pos + 2, hright, Or.inr rfl⟩
  else .ok ⟨2 * pos + 1, h, Or.inl rfl⟩

/-- `_siftup`: an entry changes places with its smaller child down to a leaf, and from
there moves back up. -/
def siftup (heap : Array α) (pos : ℕ) (hpos : pos < heap.size) : Except ε (Array α) :=
  if h : 2 * pos + 1 < heap.size then
    match smallerChild lt heap pos h with
    | .error e => .error e
    | .ok c =>
        have hc := c.2.1
        siftup (heap.swap pos c) c (by rwa [Array.size_swap])
  else siftdown lt heap pos hpos
termination_by heap.size - pos
decreasing_by
  have hlt := c.2.2.lt
  rw [Array.size_swap]
  omega

def heappush (heap : Array α) (item : α) : Except ε (Array α) :=
  siftdown lt (heap.push item) heap.size (by rw [Array.size_push]; omega)

def heappop (heap : Array α) (h : 0 < heap.size) : Except ε (α × Array α) :=
  let lastelt := heap[heap.size - 1]
  let rest := heap.pop
  if hrest : 0 < rest.size then
    match siftup lt (rest.set 0 lastelt) 0 (by rwa [Array.size_set]) with
    | .error e => .error e
    | .ok heap' => .ok (rest[0], heap')
  else .ok (lastelt, rest)

end Functions

/-! ## The order in a heap -/

section Order

variable {α ε : Type*} [LinearOrder α]

def IsHeap (heap : Array α) : Prop :=
  ∀ p c (hp : p < heap.size) (hc : c < heap.size), IsChild p c → heap[p] ≤ heap[c]

/-- Only the entry at `pos` may be smaller than its parent. -/
structure SiftdownReady (heap : Array α) (pos : ℕ) : Prop where
  except : ∀ p c (hp : p < heap.size) (hc : c < heap.size), IsChild p c → c ≠ pos →
    heap[p] ≤ heap[c]
  grand : ∀ p c (hp : p < heap.size) (hc : c < heap.size), IsChild p pos → IsChild pos c →
    heap[p] ≤ heap[c]

/-- Nothing is known of the entry at `pos`. -/
structure SiftupReady (heap : Array α) (pos : ℕ) : Prop where
  except : ∀ p c (hp : p < heap.size) (hc : c < heap.size), IsChild p c → p ≠ pos → c ≠ pos →
    heap[p] ≤ heap[c]
  grand : ∀ p c (hp : p < heap.size) (hc : c < heap.size), IsChild p pos → IsChild pos c →
    heap[p] ≤ heap[c]

theorem isHeap_empty : IsHeap (#[] : Array α) := by
  intro p c hp
  cases hp

variable {heap : Array α} {pos : ℕ}

/-- The root of a heap is its smallest entry. -/
theorem IsHeap.root_le (h : IsHeap heap) (hpos : 0 < heap.size) {i : ℕ} (hi : i < heap.size) :
    heap[0] ≤ heap[i] := by
  induction i using Nat.strongRecOn with
  | ind i ih =>
      rcases Nat.eq_zero_or_pos i with rfl | hi'
      · exact le_rfl
      · have hparent : parent i < heap.size := Nat.lt_trans (parent_lt hi') hi
        exact (ih (parent i) (parent_lt hi') hparent).trans
          (h (parent i) i hparent hi (isChild_parent hi'))

/-- An entry that is not smaller than its parent is in its place. -/
theorem SiftdownReady.finish (h : SiftdownReady heap pos)
    (hstop : ∀ p (hp : p < heap.size) (hpos : pos < heap.size), IsChild p pos →
      heap[p] ≤ heap[pos]) : IsHeap heap := by
  intro p c hp hc hchild
  by_cases hcpos : c = pos
  · subst hcpos
    exact hstop p hp hc hchild
  · exact h.except p c hp hc hchild hcpos

/-- A smaller entry changes places with its parent. -/
theorem SiftdownReady.move (h : SiftdownReady heap pos) {q : ℕ} (hpos : pos < heap.size)
    (hq : q < heap.size) (hchild : IsChild q pos) (hlt : heap[pos] < heap[q]) :
    SiftdownReady (heap.swap pos q) q := by
  have hqpos := hchild.lt
  constructor
  case except =>
    intro p c hp hc hpc hcq
    have hp' : p < heap.size := by rwa [Array.size_swap] at hp
    have hc' : c < heap.size := by rwa [Array.size_swap] at hc
    have hpclt := hpc.lt
    by_cases hcpos : c = pos
    · -- the edge that was wrong
      subst hcpos
      obtain rfl := hchild.eq hpc
      rw [Array.getElem_swap_left, Array.getElem_swap_right]
      exact hlt.le
    · rw [Array.getElem_swap_of_ne (k := c) hcpos hcq]
      by_cases hppos : p = pos
      · -- the children of `pos` have their grandparent above them now
        subst hppos
        rw [Array.getElem_swap_left]
        exact h.grand q c hq hc' hchild hpc
      · by_cases hpq : p = q
        · -- the other child of `q`
          subst hpq
          rw [Array.getElem_swap_right]
          exact hlt.le.trans (h.except p c hp' hc' hpc hcpos)
        · rw [Array.getElem_swap_of_ne hppos hpq]
          exact h.except p c hp' hc' hpc hcpos
  case grand =>
    intro p c hp hc hpq hqc
    have hp' : p < heap.size := by rwa [Array.size_swap] at hp
    have hc' : c < heap.size := by rwa [Array.size_swap] at hc
    have hpqlt := hpq.lt
    have hqclt := hqc.lt
    have hup : heap[p] ≤ heap[q] := h.except p q hp' hq hpq (Nat.ne_of_lt hqpos)
    rw [Array.getElem_swap_of_ne (k := p) (by omega) (by omega)]
    by_cases hcpos : c = pos
    · subst hcpos
      rw [Array.getElem_swap_left]
      exact hup
    · rw [Array.getElem_swap_of_ne hcpos (by omega)]
      exact hup.trans (h.except q c hq hc' hqc hcpos)

/-- An entry changes places with its smaller child. -/
theorem SiftupReady.move (h : SiftupReady heap pos) {s : ℕ} (hpos : pos < heap.size)
    (hs : s < heap.size) (hchild : IsChild pos s)
    (hleast : ∀ c (hc : c < heap.size), IsChild pos c → heap[s] ≤ heap[c]) :
    SiftupReady (heap.swap pos s) s := by
  have hposs := hchild.lt
  constructor
  case except =>
    intro p c hp hc hpc hps hcs
    have hp' : p < heap.size := by rwa [Array.size_swap] at hp
    have hc' : c < heap.size := by rwa [Array.size_swap] at hc
    have hpclt := hpc.lt
    by_cases hppos : p = pos
    · -- the smaller child is above the other one
      subst hppos
      rw [Array.getElem_swap_left, Array.getElem_swap_of_ne (by omega) hcs]
      exact hleast c hc' hpc
    · rw [Array.getElem_swap_of_ne (k := p) hppos hps]
      by_cases hcpos : c = pos
      · -- the smaller child is below its grandparent
        subst hcpos
        rw [Array.getElem_swap_left]
        exact h.grand p s hp' hs hpc hchild
      · rw [Array.getElem_swap_of_ne hcpos hcs]
        exact h.except p c hp' hc' hpc hppos hcpos
  case grand =>
    intro p c hp hc hps hsc
    have hp' : p < heap.size := by rwa [Array.size_swap] at hp
    have hc' : c < heap.size := by rwa [Array.size_swap] at hc
    have hsclt := hsc.lt
    obtain rfl := hchild.eq hps
    rw [Array.getElem_swap_left, Array.getElem_swap_of_ne (by omega) (by omega)]
    exact h.except s c hs hc' hsc (by omega) (by omega)

/-- A leaf has only its parent to be compared with. -/
theorem SiftupReady.leaf (h : SiftupReady heap pos) (hleaf : ¬ 2 * pos + 1 < heap.size) :
    SiftdownReady heap pos where
  except p c hp hc hpc hcpos := by
    refine h.except p c hp hc hpc ?_ hcpos
    rintro rfl
    unfold IsChild at hpc
    omega
  grand := h.grand

/-! ## Specifications -/

/-- Comparing does not raise, and gives the order. -/
def Compares (lt : α → α → Except ε Bool) : Prop :=
  ∀ a b, lt a b = .ok (decide (a < b))

variable {lt : α → α → Except ε Bool}

theorem siftdown_spec (hlt : Compares lt) (hpos : pos < heap.size) (h : SiftdownReady heap pos) :
    ∃ heap', siftdown lt heap pos hpos = .ok heap' ∧ IsHeap heap' ∧
      heap'.toList.Perm heap.toList := by
  induction pos using Nat.strongRecOn generalizing heap with
  | ind pos ih =>
      rw [siftdown]
      split
      · rename_i hroot
        have hparent : parent pos < heap.size := Nat.lt_trans (parent_lt hroot) hpos
        have hchild := isChild_parent hroot
        dsimp only
        rw [hlt]
        by_cases hless : heap[pos] < heap[parent pos]
        · rw [decide_eq_true hless]
          obtain ⟨heap', heq, hheap', hperm⟩ := ih (parent pos) (parent_lt hroot)
            (by rwa [Array.size_swap]) (h.move hpos hparent hchild hless)
          exact ⟨heap', heq, hheap', hperm.trans (Array.swap_perm hpos hparent).toList⟩
        · rw [decide_eq_false hless]
          refine ⟨heap, rfl, h.finish ?_, .refl _⟩
          intro p hp _ hpchild
          obtain rfl := hchild.eq hpchild
          exact not_lt.mp hless
      · rename_i hroot
        refine ⟨heap, rfl, h.finish ?_, .refl _⟩
        intro p _ _ hchild
        exact absurd (Nat.zero_lt_of_lt hchild.lt) hroot

theorem smallerChild_spec (hlt : Compares lt) (h : 2 * pos + 1 < heap.size) :
    ∃ s, ∃ (hs : s < heap.size) (hchild : IsChild pos s),
      smallerChild lt heap pos h = .ok ⟨s, hs, hchild⟩ ∧
        ∀ c (hc : c < heap.size), IsChild pos c → heap[s] ≤ heap[c] := by
  rw [smallerChild]
  split
  · rename_i hright
    rw [hlt]
    by_cases hless : heap[2 * pos + 1] < heap[2 * pos + 2]
    · rw [decide_eq_true hless]
      refine ⟨2 * pos + 1, h, Or.inl rfl, rfl, ?_⟩
      rintro c hc (rfl | rfl)
      · exact le_rfl
      · exact hless.le
    · rw [decide_eq_false hless]
      refine ⟨2 * pos + 2, hright, Or.inr rfl, rfl, ?_⟩
      rintro c hc (rfl | rfl)
      · exact not_lt.mp hless
      · exact le_rfl
  · rename_i hright
    refine ⟨2 * pos + 1, h, Or.inl rfl, rfl, ?_⟩
    rintro c hc (rfl | rfl)
    · exact le_rfl
    · exact absurd hc hright

theorem siftup_spec (hlt : Compares lt) (hpos : pos < heap.size) (h : SiftupReady heap pos) :
    ∃ heap', siftup lt heap pos hpos = .ok heap' ∧ IsHeap heap' ∧
      heap'.toList.Perm heap.toList := by
  -- the induction is on how far the entry is from the end
  generalize hfuel : heap.size - pos = fuel
  induction fuel using Nat.strongRecOn generalizing heap pos with
  | ind fuel ih =>
      rw [siftup]
      split
      · rename_i hchildren
        obtain ⟨s, hs, hchild, heq, hleast⟩ := smallerChild_spec hlt hchildren
        rw [heq]
        have hless := hchild.lt
        have hmoved := h.move hpos hs hchild hleast
        obtain ⟨heap', heq', hheap', hperm⟩ := ih ((heap.swap pos s).size - s)
          (by rw [Array.size_swap]; omega) (by rwa [Array.size_swap]) hmoved rfl
        exact ⟨heap', heq', hheap', hperm.trans (Array.swap_perm hpos hs).toList⟩
      · rename_i hleaf
        exact siftdown_spec hlt hpos (h.leaf hleaf)

/-- **A push** adds the entry. -/
theorem heappush_spec (hlt : Compares lt) (h : IsHeap heap) (item : α) :
    ∃ heap', heappush lt heap item = .ok heap' ∧ IsHeap heap' ∧
      heap'.toList.Perm (item :: heap.toList) := by
  have hready : SiftdownReady (heap.push item) heap.size := by
    constructor
    case except =>
      intro p c hp hc hpc hne
      rw [Array.size_push] at hp hc
      have hpclt := hpc.lt
      rw [Array.getElem_push_lt (by omega), Array.getElem_push_lt (by omega)]
      exact h p c (by omega) (by omega) hpc
    case grand =>
      intro p c _ hc _ hchild
      rw [Array.size_push] at hc
      have hless := hchild.lt
      omega
  obtain ⟨heap', heq, hheap', hperm⟩ :=
    siftdown_spec hlt (by rw [Array.size_push]; omega) hready
  refine ⟨heap', heq, hheap', hperm.trans ?_⟩
  rw [Array.toList_push]
  exact List.perm_append_singleton item heap.toList

omit [LinearOrder α] in
/-- The last entry takes the place of the first. -/
theorem perm_set_pop (hpos : 0 < heap.size) (hrest : 0 < heap.pop.size) :
    heap.toList.Perm (heap[0] :: (heap.pop.set 0 heap[heap.size - 1]).toList) := by
  obtain ⟨l⟩ := heap
  cases l with
  | nil => cases hpos
  | cons first l =>
      rcases List.eq_nil_or_concat l with rfl | ⟨m, last, rfl⟩
      · cases hrest
      · have hdrop : (first :: (m ++ [last])).dropLast = first :: m := by
          rw [← List.cons_append, List.dropLast_concat]
        simp [hdrop]

/-- **A pop** takes the root, which is a smallest entry. -/
theorem heappop_spec (hlt : Compares lt) (h : IsHeap heap) (hpos : 0 < heap.size) :
    ∃ heap', heappop lt heap hpos = .ok (heap[0], heap') ∧ IsHeap heap' ∧
      heap.toList.Perm (heap[0] :: heap'.toList) := by
  rw [heappop]
  split
  · rename_i hrest
    have hready : SiftupReady (heap.pop.set 0 heap[heap.size - 1]) 0 := by
      constructor
      case except =>
        intro p c hp hc hpc hp0 hc0
        rw [Array.size_set] at hp hc
        rw [Array.getElem_set_ne _ hp (Ne.symm hp0), Array.getElem_set_ne _ hc (Ne.symm hc0),
          Array.getElem_pop, Array.getElem_pop]
        rw [Array.size_pop] at hp hc
        exact h p c (by omega) (by omega) hpc
      case grand =>
        intro p c _ _ hchild
        have hless := hchild.lt
        omega
    obtain ⟨heap', heq, hheap', hperm⟩ := siftup_spec hlt (by rwa [Array.size_set]) hready
    rw [heq]
    refine ⟨heap', ?_, hheap', ?_⟩
    · rw [Array.getElem_pop]
    · exact (perm_set_pop hpos hrest).trans (hperm.symm.cons _)
  · rename_i hrest
    rw [Array.size_pop] at hrest
    obtain ⟨entry, rfl⟩ := Array.size_eq_one_iff.mp (show heap.size = 1 by omega)
    exact ⟨#[], rfl, isHeap_empty, .refl _⟩

end Order

end KernelQ.Foundation.BinaryHeap
