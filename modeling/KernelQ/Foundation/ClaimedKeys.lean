import Mathlib.Data.List.Basic

/-!
# Claimed keys

A stage claims a key of each unit of work before it works on it, and skips a
unit whose key is claimed. As long as every claimed key is `Backed` by a unit
that was worked on, what is skipped has a key of such a unit; and where the keys
tell the units apart, it is that unit (`Backed.mem_of_claimed`). The other way
round, the keys of what was worked on are `Taken`.
-/

namespace KernelQ.Foundation

/-- Each claimed key is the key of a unit in `done`. -/
def Backed {ε υ κ : Type*} (key : υ → Except ε κ) (claimed : List κ) (done : List υ) : Prop :=
  ∀ k ∈ claimed, ∃ u ∈ done, key u = .ok k

/-- Each unit in `done` has a key, and it is claimed. -/
def Taken {ε υ κ : Type*} (key : υ → Except ε κ) (claimed : List κ) (done : List υ) : Prop :=
  ∀ u ∈ done, ∃ k ∈ claimed, key u = .ok k

section

variable {ε υ κ : Type*} {key : υ → Except ε κ} {claimed claimed' : List κ} {done done' : List υ}
  {u : υ} {k : κ}

theorem Backed.nil : Backed key [] done := by
  intro k hk
  cases hk

theorem Backed.mono (h : Backed key claimed done) (hdone : done ⊆ done') : Backed key claimed done' := by
  intro k hk
  obtain ⟨u, hu, hkey⟩ := h k hk
  exact ⟨u, hdone hu, hkey⟩

theorem Backed.append (h : Backed key claimed done) (h' : Backed key claimed' done) :
    Backed key (claimed ++ claimed') done := by
  intro k hk
  rcases List.mem_append.mp hk with hk | hk
  · exact h k hk
  · exact h' k hk

/-- A key is claimed, and its unit is worked on. -/
theorem Backed.claim (h : Backed key claimed done) (hkey : key u = .ok k) :
    Backed key (k :: claimed) (done ++ [u]) := by
  intro k' hk'
  rcases List.mem_cons.mp hk' with rfl | hk'
  · exact ⟨u, by simp, hkey⟩
  · obtain ⟨v, hv, hvkey⟩ := h k' hk'
    exact ⟨v, List.mem_append_left _ hv, hvkey⟩

/-- **A unit with a claimed key was worked on**, if its key is its own. -/
theorem Backed.mem_of_claimed (h : Backed key claimed done) (hk : k ∈ claimed)
    (hinj : ∀ v ∈ done, key v = .ok k → v = u) : u ∈ done := by
  obtain ⟨v, hv, hvkey⟩ := h k hk
  rwa [← hinj v hv hvkey]

theorem Taken.nil : Taken key claimed [] := by
  intro u hu
  cases hu

theorem Taken.claim (h : Taken key claimed done) (hkey : key u = .ok k) :
    Taken key (k :: claimed) (done ++ [u]) := by
  intro v hv
  rcases List.mem_append.mp hv with hv | hv
  · obtain ⟨k', hk', hvkey⟩ := h v hv
    exact ⟨k', List.mem_cons_of_mem _ hk', hvkey⟩
  · rw [List.mem_singleton.mp hv]
    exact ⟨k, List.mem_cons_self, hkey⟩

theorem Taken.mem (h : Taken key claimed done) (hu : u ∈ done) (hkey : key u = .ok k) :
    k ∈ claimed := by
  obtain ⟨k', hk', hukey⟩ := h u hu
  rw [hukey] at hkey
  cases hkey
  exact hk'

end

end KernelQ.Foundation
