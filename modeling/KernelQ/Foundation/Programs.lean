import Mathlib.Data.List.Basic

/-!
# Programs of atomic operations

A program asks its surroundings one operation at a time and goes on with the answer.
`run` gives it surroundings of its own. Among others, all that is known of it is the
history of its operations and their answers: `Always` proves what holds of every
history, by one rule for each constructor.
-/

namespace KernelQ.Foundation

/-- A program over the operations `Op`; `Ans o` are the answers to `o`. -/
inductive Prog {Op : Type} (Ans : Op → Type) (α : Type)
  | ret (a : α)
  | op (o : Op) (next : Ans o → Prog Ans α)

namespace Prog

variable {Op : Type} {Ans : Op → Type} {α β σ : Type}

/-- An operation and its answer. -/
abbrev Event (Ans : Op → Type) := (o : Op) × Ans o

def bind : Prog Ans α → (α → Prog Ans β) → Prog Ans β
  | .ret a, f => f a
  | .op o next, f => .op o fun x => (next x).bind f

/-- Whether a program has returned can be seen. -/
instance (p : Prog Ans α) : Decidable (∃ a, p = .ret a) :=
  match p with
  | .ret a => isTrue ⟨a, rfl⟩
  | .op _ _ => isFalse fun ⟨_, h⟩ => by cases h

@[simp] theorem ret_bind (a : α) (f : α → Prog Ans β) : (ret a : Prog Ans α).bind f = f a := rfl

/-- The program alone with surroundings that answer. -/
def run (answer : σ → (o : Op) → σ × Ans o) : σ → Prog Ans α → σ × α
  | s, .ret a => (s, a)
  | s, .op o next => run answer (answer s o).1 (next (answer s o).2)

@[simp] theorem run_ret (answer : σ → (o : Op) → σ × Ans o) (s : σ) (a : α) :
    run answer s (ret a) = (s, a) := rfl

@[simp] theorem run_op (answer : σ → (o : Op) → σ × Ans o) (s : σ) (o : Op)
    (next : Ans o → Prog Ans α) :
    run answer s (op o next) = run answer (answer s o).1 (next (answer s o).2) := rfl

theorem run_bind (answer : σ → (o : Op) → σ × Ans o) (s : σ) (p : Prog Ans α)
    (f : α → Prog Ans β) :
    run answer s (p.bind f) = run answer (run answer s p).1 (f (run answer s p).2) := by
  induction p generalizing s with
  | ret a => rfl
  | op o next ih => exact ih (answer s o).2 (answer s o).1

/-- The operations of that run, and their answers. -/
def record (answer : σ → (o : Op) → σ × Ans o) : σ → Prog Ans α → List (Event Ans)
  | _, .ret _ => []
  | s, .op o next => ⟨o, (answer s o).2⟩ :: record answer (answer s o).1 (next (answer s o).2)

theorem answer_of_mem_record {answer : σ → (o : Op) → σ × Ans o} {p : Prog Ans α} {s : σ}
    {e : Event Ans} (he : e ∈ p.record answer s) : ∃ s', e.2 = (answer s' e.1).2 := by
  induction p generalizing s with
  | ret a => cases he
  | op o next ih =>
      rcases List.mem_cons.mp he with rfl | he
      · exact ⟨s, rfl⟩
      · exact ih _ he

/-! ## Histories -/

/-- The program is at `q` after the operations in the history. -/
inductive Leads (p : Prog Ans α) : List (Event Ans) → Prog Ans α → Prop
  | start : Leads p [] p
  | step {h : List (Event Ans)} {o : Op} {next : Ans o → Prog Ans α} (hlast : Leads p h (.op o next))
      (a : Ans o) : Leads p (h ++ [⟨o, a⟩]) (next a)

/-- A program that has returned does nothing. -/
theorem Leads.of_ret {a : α} {q : Prog Ans α} {h : List (Event Ans)}
    (hq : (ret a : Prog Ans α).Leads h q) : h = [] ∧ q = .ret a := by
  induction hq with
  | start => exact ⟨rfl, rfl⟩
  | step _ _ ih => cases ih.2

/-- What the program does alone is one of its histories. -/
theorem Leads.record {p q : Prog Ans α} {h : List (Event Ans)} (hq : p.Leads h q)
    (answer : σ → (o : Op) → σ × Ans o) (s : σ) :
    p.Leads (h ++ q.record answer s) (.ret (q.run answer s).2) := by
  induction q generalizing h s with
  | ret a =>
      rw [Prog.record, List.append_nil]
      exact hq
  | op o next ih =>
      have hnext := ih (answer s o).2 (hq.step (answer s o).2) (answer s o).1
      rwa [List.append_assoc] at hnext

/-- From the history `h` on, `I` holds of every history, and `final` of the last one
and of what is returned. -/
inductive Always (I : List (Event Ans) → Prop) (final : α → List (Event Ans) → Prop) :
    List (Event Ans) → Prog Ans α → Prop
  | ret {h : List (Event Ans)} {a : α} (hI : I h) (hfinal : final a h) : Always I final h (.ret a)
  | op {h : List (Event Ans)} {o : Op} {next : Ans o → Prog Ans α} (hI : I h)
      (hnext : ∀ a, Always I final (h ++ [⟨o, a⟩]) (next a)) : Always I final h (.op o next)

variable {I I' : List (Event Ans) → Prop} {final final' : α → List (Event Ans) → Prop}
  {h : List (Event Ans)} {p q : Prog Ans α}

theorem Always.now (hp : Always I final h p) : I h := by
  cases hp with
  | ret hI _ => exact hI
  | op hI _ => exact hI

theorem Always.mono (hp : Always I final h p) (hfinal : ∀ a h, I h → final a h → final' a h) :
    Always I final' h p := by
  induction hp with
  | ret hI hlast => exact .ret hI (hfinal _ _ hI hlast)
  | op hI _ ih => exact .op hI ih

theorem Always.weaken (hp : Always I final h p) (hI : ∀ h, I h → I' h) :
    Always I' final h p := by
  induction hp with
  | ret hnow hlast => exact .ret (hI _ hnow) hlast
  | op hnow _ ih => exact .op (hI _ hnow) ih

/-- What holds apart holds together. -/
theorem Always.and (hp : Always I final h p) (hp' : Always I' final' h p) :
    Always (fun h => I h ∧ I' h) (fun a h => final a h ∧ final' a h) h p := by
  induction hp with
  | ret hI hfinal =>
      cases hp' with
      | ret hI' hfinal' => exact .ret ⟨hI, hI'⟩ ⟨hfinal, hfinal'⟩
  | op hI _ ih =>
      cases hp' with
      | op hI' hnext' => exact .op ⟨hI, hI'⟩ fun a => ih a (hnext' a)

/-- **Sequence**: what follows is proved from where the first program ends. -/
theorem Always.bind {f : α → Prog Ans β} {final : β → List (Event Ans) → Prop}
    (hp : Always I (fun a h => Always I final h (f a)) h p) : Always I final h (p.bind f) := by
  induction hp with
  | ret _ hlast => exact hlast
  | op hI _ ih => exact .op hI ih

/-- A history is only ever added to. -/
theorem Always.extends (p : Prog Ans α) (h₀ : List (Event Ans)) :
    ∀ h, h₀ <+: h → p.Always (fun h' => h₀ <+: h') (fun _ h' => h₀ <+: h') h := by
  induction p with
  | ret a => exact fun h hh => .ret hh hh
  | op o next ih =>
      exact fun h hh => .op hh fun a => ih a _ (hh.trans (List.prefix_append _ _))

theorem Always.trivial (p : Prog Ans α) : p.Always (fun _ => True) (fun _ _ => True) h :=
  ((Always.extends p h h (List.prefix_refl h)).weaken fun _ _ => True.intro).mono
    fun _ _ _ _ => True.intro

/-- What has happened stays in the history. -/
theorem Always.mem (p : Prog Ans α) {e : Event Ans} (he : e ∈ h) :
    p.Always (fun h' => e ∈ h') (fun _ h' => e ∈ h') h :=
  ((Always.extends p h h (List.prefix_refl h)).weaken fun _ hp => hp.subset he).mono
    fun _ _ hmem _ => hmem

/-- **Every history** of the program. -/
theorem Always.leads (hp : Always I final [] p) (hq : p.Leads h q) : Always I final h q := by
  induction hq with
  | start => exact hp
  | step hlast a ih =>
      cases ih with
      | op _ hnext => exact hnext a

end Prog

end KernelQ.Foundation
