import Mathlib.Data.List.Induction
import Mathlib.Data.List.Pairwise
import Mathlib.Order.Lattice

/-!
# Leases

A lease holds a key until it expires. Leases are asked for one after the other, and
one is granted exactly if no lease granted before still holds its key. Nothing here
speaks of a clock: what is asked for later need not start later.
-/

namespace KernelQ.Foundation

structure Lease (κ τ : Type*) where
  key : κ
  start : τ
  expiry : τ

namespace Lease

variable {κ τ : Type*} [DecidableEq κ] [LinearOrder τ]

/-- No lease holds the key at the time. -/
def Free (granted : List (Lease κ τ)) (key : κ) (t : τ) : Prop :=
  ∀ l ∈ granted, l.key = key → l.expiry ≤ t

instance (granted : List (Lease κ τ)) (key : κ) (t : τ) : Decidable (Free granted key t) :=
  inferInstanceAs (Decidable (∀ l ∈ granted, l.key = key → l.expiry ≤ t))

def grant (granted : List (Lease κ τ)) (l : Lease κ τ) : List (Lease κ τ) :=
  if Free granted l.key l.start then granted ++ [l] else granted

/-- The leases that are granted, of those that are asked for. -/
def grantAll (asks : List (Lease κ τ)) : List (Lease κ τ) :=
  asks.foldl grant []

variable {granted asks : List (Lease κ τ)} {l : Lease κ τ} {key : κ} {t t' : τ}

@[simp] theorem grantAll_nil : grantAll ([] : List (Lease κ τ)) = [] := rfl

@[simp] theorem grantAll_append_singleton (asks : List (Lease κ τ)) (l : Lease κ τ) :
    grantAll (asks ++ [l]) = grant (grantAll asks) l := by
  rw [grantAll, List.foldl_append]
  rfl

theorem grant_of_free (h : Free granted l.key l.start) : grant granted l = granted ++ [l] :=
  if_pos h

theorem grant_of_not_free (h : ¬ Free granted l.key l.start) : grant granted l = granted :=
  if_neg h

omit [DecidableEq κ] in
/-- A key that is free stays free. -/
theorem Free.mono (h : Free granted key t) (ht : t ≤ t') : Free granted key t' := by
  intro l hl hkey
  exact le_trans (h l hl hkey) ht

omit [DecidableEq κ] in
theorem free_append_singleton :
    Free (granted ++ [l]) key t ↔ Free granted key t ∧ (l.key = key → l.expiry ≤ t) := by
  constructor
  · intro h
    exact ⟨fun l' hl' => h l' (List.mem_append_left _ hl'), h l (by simp)⟩
  · rintro ⟨h, hl⟩ l' hl'
    rcases List.mem_append.mp hl' with hl' | hl'
    · exact h l' hl'
    · rw [List.mem_singleton.mp hl']
      exact hl

/-- What is granted has been asked for. -/
theorem mem_of_mem_grantAll (h : l ∈ grantAll asks) : l ∈ asks := by
  induction asks using List.reverseRecOn with
  | nil => exact h
  | append_singleton asks l' ih =>
      rw [grantAll_append_singleton, grant] at h
      split at h
      · rcases List.mem_append.mp h with h | h
        · exact List.mem_append_left _ (ih h)
        · exact List.mem_append_right _ h
      · exact List.mem_append_left _ (ih h)

/-- **The leases of one key** follow each other. -/
theorem grantAll_pairwise (asks : List (Lease κ τ)) :
    (grantAll asks).Pairwise fun a b => a.key = b.key → a.expiry ≤ b.start := by
  induction asks using List.reverseRecOn with
  | nil => exact .nil
  | append_singleton asks l ih =>
      rw [grantAll_append_singleton]
      by_cases hfree : Free (grantAll asks) l.key l.start
      · rw [grant_of_free hfree, List.pairwise_append]
        refine ⟨ih, List.pairwise_singleton _ _, ?_⟩
        intro a ha b hb hkey
        obtain rfl := List.mem_singleton.mp hb
        exact hfree a ha hkey
      · rw [grant_of_not_free hfree]
        exact ih

omit [DecidableEq κ] in
/-- Only the leases of a key say whether it is free. -/
theorem free_filter {K : κ → Bool} (hkey : K key = true) :
    Free (granted.filter fun l => K l.key) key t ↔ Free granted key t := by
  constructor
  · intro h l hl hl'
    refine h l (List.mem_filter.mpr ⟨hl, ?_⟩) hl'
    rw [hl']
    exact hkey
  · intro h l hl
    exact h l (List.mem_filter.mp hl).1

/-- **Keys are independent**: some keys' leases are granted as if there were no
others. -/
theorem grantAll_filter (K : κ → Bool) (asks : List (Lease κ τ)) :
    grantAll (asks.filter fun l => K l.key) = (grantAll asks).filter fun l => K l.key := by
  induction asks using List.reverseRecOn with
  | nil => rfl
  | append_singleton asks l ih =>
      rw [List.filter_append, grantAll_append_singleton]
      cases hl : K l.key with
      | false =>
          have hnone : [l].filter (fun l => K l.key) = [] := by simp [hl]
          rw [hnone, List.append_nil, ih, grant]
          split
          · rw [List.filter_append, hnone, List.append_nil]
          · rfl
      | true =>
          have hone : [l].filter (fun l => K l.key) = [l] := by simp [hl]
          rw [hone, grantAll_append_singleton, ih]
          by_cases hfree : Free (grantAll asks) l.key l.start
          · rw [grant_of_free hfree, grant_of_free ((free_filter hl).mpr hfree),
              List.filter_append, hone]
          · rw [grant_of_not_free hfree,
              grant_of_not_free fun h => hfree ((free_filter hl).mp h)]

end Lease

end KernelQ.Foundation
