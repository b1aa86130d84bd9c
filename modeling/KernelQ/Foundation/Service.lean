import Mathlib.Data.List.Basic
import Mathlib.Data.List.ReduceOption

/-!
# Services and their replies

A service is an object with methods: every call changes its state and has a
reply. Two rules serve all the inductions over sequences of calls: one for
invariants, and one for two services that answer alike (`replies_congr`). The
relation of the second may speak of the calls still to come.
-/

namespace KernelQ.Foundation

structure Service (σ ι ο : Type*) where
  call : σ → ι → σ × ο

namespace Service

variable {σ τ ι κ ο ρ : Type*} (S : Service σ ι ο)

/-- The state after the calls. -/
def after : σ → List ι → σ
  | s, [] => s
  | s, c :: cs => after (S.call s c).1 cs

/-- The replies to the calls, in order. -/
def replies : σ → List ι → List ο
  | _, [] => []
  | s, c :: cs => (S.call s c).2 :: replies (S.call s c).1 cs

/-- Each call with its reply. -/
def dialogue : σ → List ι → List (ι × ο)
  | _, [] => []
  | s, c :: cs => (c, (S.call s c).2) :: dialogue (S.call s c).1 cs

@[simp] theorem after_nil (s : σ) : S.after s [] = s := rfl

@[simp] theorem replies_nil (s : σ) : S.replies s [] = [] := rfl

@[simp] theorem dialogue_nil (s : σ) : S.dialogue s [] = [] := rfl

theorem after_append (s : σ) (cs ds : List ι) :
    S.after s (cs ++ ds) = S.after (S.after s cs) ds := by
  induction cs generalizing s with
  | nil => rfl
  | cons c cs ih => exact ih (S.call s c).1

theorem dialogue_append (s : σ) (cs ds : List ι) :
    S.dialogue s (cs ++ ds) = S.dialogue s cs ++ S.dialogue (S.after s cs) ds := by
  induction cs generalizing s with
  | nil => rfl
  | cons c cs ih => exact congrArg (_ :: ·) (ih (S.call s c).1)

theorem dialogue_map_fst (s : σ) (cs : List ι) : (S.dialogue s cs).map Prod.fst = cs := by
  induction cs generalizing s with
  | nil => rfl
  | cons c cs ih => exact congrArg (c :: ·) (ih (S.call s c).1)

variable {S}

/-- **Invariant rule**: what every call preserves holds after all calls. -/
theorem after_invariant {P : σ → Prop} (hcall : ∀ s c, P s → P (S.call s c).1) {s : σ}
    (hs : P s) (cs : List ι) : P (S.after s cs) := by
  induction cs generalizing s with
  | nil => exact hs
  | cons c cs ih => exact ih (hcall s c hs)

/-- **Two services answer alike** as long as related states have related replies.
Here `f` translates the calls. -/
theorem replies_congr {T : Service τ κ ρ} {f : ι → κ} {R : List ι → σ → τ → Prop}
    {Q : ο → ρ → Prop}
    (hcall : ∀ c cs s t, R (c :: cs) s t →
      Q (S.call s c).2 (T.call t (f c)).2 ∧ R cs (S.call s c).1 (T.call t (f c)).1)
    {s : σ} {t : τ} {cs : List ι} (h : R cs s t) :
    List.Forall₂ Q (S.replies s cs) (T.replies t (cs.map f)) := by
  induction cs generalizing s t with
  | nil => exact List.Forall₂.nil
  | cons c cs ih =>
      obtain ⟨hreply, hrest⟩ := hcall c cs s t h
      exact List.Forall₂.cons hreply (ih hrest)

/-! ## Calls that change nothing -/

variable (S) in
/-- The replies to the calls of a list, where `none` stands for an extra call of `c₀`, whose
reply is left out. -/
def repliesAround (c₀ : ι) (s : σ) (cs : List (Option ι)) : List ο :=
  (cs.zip (S.replies s (cs.map fun c => c.getD c₀))).filterMap fun p => p.1.map fun _ => p.2

/-- **Calls that change nothing** can be put in anywhere: no other call notices. -/
theorem repliesAround_eq {c₀ : ι} (hsame : ∀ s, (S.call s c₀).1 = s) (s : σ)
    (cs : List (Option ι)) :
    S.repliesAround c₀ s cs = S.replies s cs.reduceOption ∧
      S.after s (cs.map fun c => c.getD c₀) = S.after s cs.reduceOption := by
  induction cs generalizing s with
  | nil => exact ⟨rfl, rfl⟩
  | cons c cs ih =>
      cases c with
      | none =>
          obtain ⟨hreplies, hafter⟩ := ih s
          rw [List.reduceOption_cons_of_none]
          constructor
          · rw [← hreplies]
            show S.repliesAround c₀ (S.call s c₀).1 cs = _
            rw [hsame]
          · rw [← hafter]
            show S.after (S.call s c₀).1 _ = _
            rw [hsame]
      | some c =>
          obtain ⟨hreplies, hafter⟩ := ih (S.call s c).1
          rw [List.reduceOption_cons_of_some]
          exact ⟨congrArg ((S.call s c).2 :: ·) hreplies, hafter⟩

end Service

end KernelQ.Foundation
