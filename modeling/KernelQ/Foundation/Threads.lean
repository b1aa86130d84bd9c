import KernelQ.Foundation.Programs
import Mathlib.Algebra.BigOperators.Group.List.Basic
import Mathlib.Algebra.GroupWithZero.Nat
import Mathlib.Algebra.Order.BigOperators.Group.List
import Mathlib.Algebra.Order.Group.Nat
import Mathlib.Data.List.Induction

/-!
# Threads that share a state

Calls come at any time, each runs its program in a thread of its own, and the
threads take turns, one operation at a time. Nothing is ever forgotten: a thread keeps
its history. Two rules count events over all threads: a claim that is won at most once
in the shared state is won at most once by all threads together (`count_le_one`), and
a shared counter is the number of the events it counts (`counter_eq`).
-/

namespace KernelQ.Foundation

open Prog (Event)

/-- A call, what it has done, and what is left of its program. -/
structure Thread (Λ : Type) {Op : Type} (Ans : Op → Type) (α : Type) where
  call : Λ
  history : List (Event Ans)
  rest : Prog Ans α

/-- What the call has returned. -/
def Thread.returned {Λ Op : Type} {Ans : Op → Type} {α : Type} (t : Thread Λ Ans α) : Option α :=
  match t.rest with
  | .ret a => some a
  | .op _ _ => none

structure Pool (σ Λ : Type) {Op : Type} (Ans : Op → Type) (α : Type) where
  shared : σ
  threads : List (Thread Λ Ans α)

namespace Pool

variable {σ Λ Op : Type} {Ans : Op → Type} {α : Type}

/-- How often the threads have done something, which may depend on their calls. -/
def count (p : Λ → Event Ans → Bool) (s : Pool σ Λ Ans α) : ℕ :=
  (s.threads.map fun t => t.history.countP (p t.call)).sum

theorem count_call (p : Λ → Event Ans → Bool) (shared shared' : σ)
    (threads : List (Thread Λ Ans α)) (c : Λ) (rest : Prog Ans α) :
    count p ⟨shared, threads ++ [⟨c, [], rest⟩]⟩ = count p ⟨shared', threads⟩ := by
  simp [count]

theorem count_turn (p : Λ → Event Ans → Bool) (shared shared' : σ)
    (pre post : List (Thread Λ Ans α)) (t : Thread Λ Ans α) (e : Event Ans) (rest : Prog Ans α) :
    count p ⟨shared, pre ++ ⟨t.call, t.history ++ [e], rest⟩ :: post⟩ =
      count p ⟨shared', pre ++ t :: post⟩ + (p t.call e).toNat := by
  have hone : [e].countP (p t.call) = (p t.call e).toNat := by
    rw [List.countP_singleton]
    cases p t.call e <;> rfl
  simp only [count, List.map_append, List.map_cons, List.sum_append, List.sum_cons,
    List.countP_append, hone]
  omega

/-- Counts are compared thread by thread. -/
theorem count_le {p q : Λ → Event Ans → Bool} {s : Pool σ Λ Ans α}
    (h : ∀ t ∈ s.threads, t.history.countP (p t.call) ≤ t.history.countP (q t.call)) :
    s.count p ≤ s.count q :=
  List.sum_le_sum h

/-- One thread that has done less makes the difference. -/
theorem count_lt {p q : Λ → Event Ans → Bool} {s : Pool σ Λ Ans α}
    (h : ∀ t ∈ s.threads, t.history.countP (p t.call) ≤ t.history.countP (q t.call))
    (hlt : ∃ t ∈ s.threads, t.history.countP (p t.call) < t.history.countP (q t.call)) :
    s.count p < s.count q :=
  List.sum_lt_sum _ _ h hlt

theorem count_congr {p q : Λ → Event Ans → Bool} {s : Pool σ Λ Ans α}
    (h : ∀ t ∈ s.threads, t.history.countP (p t.call) = t.history.countP (q t.call)) :
    s.count p = s.count q := by
  unfold count
  rw [List.map_congr_left h]

theorem count_pos_iff {p : Λ → Event Ans → Bool} {s : Pool σ Λ Ans α} :
    0 < s.count p ↔ ∃ t ∈ s.threads, ∃ e ∈ t.history, p t.call e = true := by
  unfold count
  rw [Nat.pos_iff_ne_zero, Ne, List.sum_eq_zero_iff]
  simp only [List.mem_map, forall_exists_index, and_imp, forall_apply_eq_imp_iff₂,
    List.countP_eq_zero, not_forall, not_not, exists_prop]

/-- Where no thread does it twice, the events are as many as the threads. -/
theorem count_eq_threads {p : Λ → Event Ans → Bool} {s : Pool σ Λ Ans α}
    (h : ∀ t ∈ s.threads, t.history.countP (p t.call) ≤ 1) :
    s.count p = s.threads.countP fun t => t.history.any (p t.call) := by
  obtain ⟨shared, threads⟩ := s
  show (threads.map fun t => t.history.countP (p t.call)).sum = _
  induction threads with
  | nil => rfl
  | cons t threads ih =>
      rw [List.map_cons, List.sum_cons, List.countP_cons,
        ih fun u hu => h u (List.mem_cons_of_mem _ hu), Nat.add_comm]
      congr 1
      have hone := h t List.mem_cons_self
      by_cases hany : t.history.any (p t.call) = true
      · obtain ⟨e, he, hp⟩ := List.any_eq_true.mp hany
        have hpos : 0 < t.history.countP (p t.call) := List.countP_pos_iff.mpr ⟨e, he, hp⟩
        rw [if_pos hany]
        omega
      · rw [if_neg hany]
        refine List.countP_eq_zero.mpr ?_
        intro e he hp
        exact hany (List.any_eq_true.mpr ⟨e, he, hp⟩)

theorem count_add {p q r : Λ → Event Ans → Bool} {s : Pool σ Λ Ans α}
    (h : ∀ t ∈ s.threads, t.history.countP (p t.call) =
      t.history.countP (q t.call) + t.history.countP (r t.call)) :
    s.count p = s.count q + s.count r := by
  unfold count
  rw [← List.sum_map_add, List.map_congr_left h]

/-- If only threads of one kind do it, and none of them twice, it is done no more often than
there are such threads. -/
theorem sum_countP_le {p : Λ → Event Ans → Bool} {k : Λ → Bool} {threads : List (Thread Λ Ans α)}
    (hle : ∀ t ∈ threads, t.history.countP (p t.call) ≤ (k t.call).toNat) :
    (threads.map fun t => t.history.countP (p t.call)).sum ≤
      threads.countP fun t => k t.call := by
  induction threads with
  | nil => exact le_refl _
  | cons t threads ih =>
      have hone := hle t List.mem_cons_self
      have hrest := ih fun u hu => hle u (List.mem_cons_of_mem _ hu)
      rw [List.map_cons, List.sum_cons, List.countP_cons]
      cases hk : k t.call with
      | false =>
          rw [hk] at hone
          simp only [Bool.toNat_false] at hone
          simp only [Bool.false_eq_true, if_false]
          omega
      | true =>
          rw [hk] at hone
          simp only [Bool.toNat_true] at hone
          simp only [if_true]
          omega

/-- Threads that have each done it are no more than it was done. -/
theorem countP_le_count {p : Λ → Event Ans → Bool} {q : Thread Λ Ans α → Bool}
    {s : Pool σ Λ Ans α}
    (h : ∀ t ∈ s.threads, q t = true → ∃ e ∈ t.history, p t.call e = true) :
    s.threads.countP q ≤ s.count p := by
  obtain ⟨shared, threads⟩ := s
  show threads.countP q ≤ (threads.map fun t => t.history.countP (p t.call)).sum
  induction threads with
  | nil => exact le_refl _
  | cons t threads ih =>
      have hrest := ih fun u hu => h u (List.mem_cons_of_mem _ hu)
      rw [List.map_cons, List.sum_cons, List.countP_cons]
      split
      · rename_i hq
        have hpos := List.countP_pos_iff.mpr (h t List.mem_cons_self hq)
        omega
      · omega

/-- **Where all are needed, each has done it**: if only threads of one kind do it, none of
them twice, and it is done as often as there are such threads. -/
theorem count_eq_one {p : Λ → Event Ans → Bool} {k : Λ → Bool} {s : Pool σ Λ Ans α}
    (hle : ∀ t ∈ s.threads, t.history.countP (p t.call) ≤ (k t.call).toNat)
    (hall : (s.threads.countP fun t => k t.call) ≤ s.count p) :
    ∀ t ∈ s.threads, k t.call = true → t.history.countP (p t.call) = 1 := by
  obtain ⟨shared, threads⟩ := s
  change ∀ t ∈ threads, _ at hle
  change (threads.countP fun t => k t.call) ≤
    (threads.map fun t => t.history.countP (p t.call)).sum at hall
  show ∀ t ∈ threads, _
  induction threads with
  | nil =>
      intro t ht
      cases ht
  | cons t threads ih =>
      have hone := hle t List.mem_cons_self
      -- the threads behind do no more than their part, so this one has done its own
      have hrest := sum_countP_le fun u hu => hle u (List.mem_cons_of_mem _ hu)
      rw [List.map_cons, List.sum_cons, List.countP_cons] at hall
      intro u hu hku
      rcases List.mem_cons.mp hu with rfl | hu
      · rw [hku] at hone hall
        simp only [Bool.toNat_true, if_true] at hone hall
        omega
      · refine ih (fun v hv => hle v (List.mem_cons_of_mem _ hv)) ?_ u hu hku
        cases hk : k t.call with
        | false =>
            rw [hk] at hone hall
            simp only [Bool.toNat_false, Bool.false_eq_true, if_false] at hone hall
            omega
        | true =>
            rw [hk] at hone hall
            simp only [Bool.toNat_true, if_true] at hone hall
            omega

/-- The calls that have come. -/
def calls (s : Pool σ Λ Ans α) : List Λ :=
  s.threads.map Thread.call

section

variable (program : Λ → Prog Ans α) (mayCall : Pool σ Λ Ans α → Λ → Prop)
  (responds : σ → Event Ans → σ → Prop)

/-- A call comes, or a thread takes its turn. -/
inductive Step : Pool σ Λ Ans α → Pool σ Λ Ans α → Prop
  | call {s : Pool σ Λ Ans α} (c : Λ) (hmay : mayCall s c) :
      Step s ⟨s.shared, s.threads ++ [⟨c, [], program c⟩]⟩
  | turn (shared shared' : σ) (pre post : List (Thread Λ Ans α)) (t : Thread Λ Ans α) (o : Op)
      (next : Ans o → Prog Ans α) (a : Ans o) (hrest : t.rest = .op o next)
      (hresponds : responds shared ⟨o, a⟩ shared') :
      Step ⟨shared, pre ++ t :: post⟩
        ⟨shared', pre ++ ⟨t.call, t.history ++ [⟨o, a⟩], next a⟩ :: post⟩

/-- The pools that are reached from the shared state `s₀`, before any call. -/
inductive Reachable (s₀ : σ) : Pool σ Λ Ans α → Prop
  | start : Reachable s₀ ⟨s₀, []⟩
  | step {s t : Pool σ Λ Ans α} (h : Reachable s₀ s) (hstep : Step program mayCall responds s t) :
      Reachable s₀ t

/-- The pools that are reached, with all that their threads have done, in order, each event
with the index of its thread. -/
inductive Logged (s₀ : σ) : List (ℕ × Event Ans) → Pool σ Λ Ans α → Prop
  | start : Logged s₀ [] ⟨s₀, []⟩
  | call {log : List (ℕ × Event Ans)} {s : Pool σ Λ Ans α} (h : Logged s₀ log s) (c : Λ)
      (hmay : mayCall s c) : Logged s₀ log ⟨s.shared, s.threads ++ [⟨c, [], program c⟩]⟩
  | turn {log : List (ℕ × Event Ans)} (shared shared' : σ) (pre post : List (Thread Λ Ans α))
      (t : Thread Λ Ans α) (o : Op) (next : Ans o → Prog Ans α) (a : Ans o)
      (h : Logged s₀ log ⟨shared, pre ++ t :: post⟩) (hrest : t.rest = .op o next)
      (hresponds : responds shared ⟨o, a⟩ shared') :
      Logged s₀ (log ++ [(pre.length, ⟨o, a⟩)])
        ⟨shared', pre ++ ⟨t.call, t.history ++ [⟨o, a⟩], next a⟩ :: post⟩

end

variable {program : Λ → Prog Ans α} {mayCall : Pool σ Λ Ans α → Λ → Prop}
  {responds : σ → Event Ans → σ → Prop} {s₀ : σ} {s : Pool σ Λ Ans α}

/-- Every thread is where its history leads. -/
theorem Reachable.leads (h : Reachable program mayCall responds s₀ s) :
    ∀ t ∈ s.threads, (program t.call).Leads t.history t.rest := by
  induction h with
  | start =>
      intro t ht
      cases ht
  | step _ hstep ih =>
      cases hstep with
      | call c _ =>
          intro t ht
          rcases List.mem_append.mp ht with ht | ht
          · exact ih t ht
          · rw [List.mem_singleton.mp ht]
            exact .start
      | turn shared shared' pre post t o next a hrest _ =>
          intro u hu
          rcases List.mem_append.mp hu with hu | hu
          · exact ih u (List.mem_append_left _ hu)
          rcases List.mem_cons.mp hu with rfl | hu
          · have hlast := ih t (List.mem_append_right _ List.mem_cons_self)
            rw [hrest] at hlast
            exact .step hlast a
          · exact ih u (List.mem_append_right _ (List.mem_cons_of_mem _ hu))

/-- **What always holds of a program's history holds in every thread.** -/
theorem Reachable.always (h : Reachable program mayCall responds s₀ s)
    {I : Λ → List (Event Ans) → Prop} {final : Λ → α → List (Event Ans) → Prop}
    (hprogram : ∀ c, (program c).Always (I c) (final c) []) {t : Thread Λ Ans α}
    (ht : t ∈ s.threads) :
    I t.call t.history ∧ ∀ a, t.rest = .ret a → final t.call a t.history := by
  have hnow := (hprogram t.call).leads (h.leads t ht)
  refine ⟨hnow.now, ?_⟩
  intro a ha
  rw [ha] at hnow
  cases hnow with
  | ret _ hfinal => exact hfinal

/-- The last thread runs to its end, alone. -/
theorem Reachable.finish {answer : σ → (o : Op) → σ × Ans o}
    (hanswer : ∀ s o, responds s ⟨o, (answer s o).2⟩ (answer s o).1)
    {threads : List (Thread Λ Ans α)} {c : Λ} {p : Prog Ans α} {shared : σ}
    {history : List (Event Ans)}
    (h : Reachable program mayCall responds s₀ ⟨shared, threads ++ [⟨c, history, p⟩]⟩) :
    Reachable program mayCall responds s₀ ⟨(p.run answer shared).1,
      threads ++ [⟨c, history ++ p.record answer shared, .ret (p.run answer shared).2⟩]⟩ := by
  induction p generalizing shared history with
  | ret a =>
      show Reachable program mayCall responds s₀ ⟨shared, threads ++ [⟨c, history ++ [], .ret a⟩]⟩
      rwa [List.append_nil]
  | op o next ih =>
      have hturn := h.step (.turn shared (answer shared o).1 threads [] ⟨c, history, .op o next⟩ o
        next (answer shared o).2 rfl (hanswer shared o))
      have hfinish := ih _ hturn
      rwa [List.append_assoc] at hfinish

/-- **A call that runs alone** is one of the interleavings. -/
theorem Reachable.alone {answer : σ → (o : Op) → σ × Ans o}
    (hanswer : ∀ s o, responds s ⟨o, (answer s o).2⟩ (answer s o).1)
    (h : Reachable program mayCall responds s₀ s) {c : Λ} (hmay : mayCall s c) :
    Reachable program mayCall responds s₀ ⟨((program c).run answer s.shared).1,
      s.threads ++ [⟨c, (program c).record answer s.shared,
        .ret ((program c).run answer s.shared).2⟩]⟩ :=
  Reachable.finish hanswer (h.step (.call c hmay))

/-! ### Interleavings that compute -/

section

variable (answer : σ → (o : Op) → Option (σ × Ans o))

/-- The thread with an index takes its turn, where the surroundings answer. -/
def turn (s : Pool σ Λ Ans α) (i : ℕ) : Option (Pool σ Λ Ans α) :=
  match s.threads[i]? with
  | some ⟨c, history, .op o next⟩ =>
      (answer s.shared o).map fun r =>
        ⟨r.1, s.threads.set i ⟨c, history ++ [⟨o, r.2⟩], next r.2⟩⟩
  | _ => none

def turns : Pool σ Λ Ans α → List ℕ → Option (Pool σ Λ Ans α)
  | s, [] => some s
  | s, i :: is => (turn answer s i).bind fun s' => turns s' is

variable {answer}

theorem Reachable.turn (hanswer : ∀ s o r, answer s o = some r → responds s ⟨o, r.2⟩ r.1)
    (h : Reachable program mayCall responds s₀ s) {s' : Pool σ Λ Ans α} {i : ℕ}
    (hturn : s.turn answer i = some s') : Reachable program mayCall responds s₀ s' := by
  obtain ⟨shared, threads⟩ := s
  unfold Pool.turn at hturn
  split at hturn
  · rename_i c history o next hthread
    obtain ⟨r, hr, rfl⟩ := Option.map_eq_some_iff.mp hturn
    obtain ⟨hi, hget⟩ := List.getElem?_eq_some_iff.mp hthread
    have hthreads : threads.take i ++ ⟨c, history, .op o next⟩ :: threads.drop (i + 1) =
        threads := by
      rw [← hget, ← List.drop_eq_getElem_cons hi, List.take_append_drop]
    have hstep : Step program mayCall responds ⟨shared, _⟩ _ :=
      .turn shared r.1 (threads.take i) (threads.drop (i + 1)) ⟨c, history, .op o next⟩ o next
        r.2 rfl (hanswer _ _ _ hr)
    rw [hthreads] at hstep
    show Reachable program mayCall responds s₀ ⟨r.1, threads.set i _⟩
    rw [List.set_eq_take_append_cons_drop, if_pos hi]
    exact h.step hstep
  · cases hturn

/-- **A schedule** is one of the interleavings. -/
theorem Reachable.turns (hanswer : ∀ s o r, answer s o = some r → responds s ⟨o, r.2⟩ r.1)
    (h : Reachable program mayCall responds s₀ s) {s' : Pool σ Λ Ans α} {is : List ℕ}
    (hturns : s.turns answer is = some s') : Reachable program mayCall responds s₀ s' := by
  induction is generalizing s with
  | nil =>
      obtain rfl := Option.some.inj hturns
      exact h
  | cons i is ih =>
      obtain ⟨t, hturn, hrest⟩ := Option.bind_eq_some_iff.mp hturns
      exact ih (h.turn hanswer hturn) hrest

end

/-! ### What holds of them all -/

/-- An invariant of the shared state. -/
theorem Reachable.invariant (h : Reachable program mayCall responds s₀ s) {Q : σ → Prop}
    (hstart : Q s₀) (hkeep : ∀ s e s', responds s e s' → Q s → Q s') : Q s.shared := by
  induction h with
  | start => exact hstart
  | step _ hstep ih =>
      cases hstep with
      | call c _ => exact ih
      | turn shared shared' pre post t o next a hrest hresponds => exact hkeep _ _ _ hresponds ih

/-- What an invariant of the shared state lets be answered is all that threads have seen. -/
theorem Reachable.events (h : Reachable program mayCall responds s₀ s) {Q : σ → Prop}
    {R : Event Ans → Prop} (hstart : Q s₀) (hkeep : ∀ s e s', responds s e s' → Q s → Q s')
    (hevent : ∀ s e s', responds s e s' → Q s → R e) : ∀ t ∈ s.threads, ∀ e ∈ t.history, R e := by
  induction h with
  | start =>
      intro t ht
      cases ht
  | @step s _ hs hstep ih =>
      have hnow := hs.invariant hstart hkeep
      cases hstep with
      | call c _ =>
          intro t ht e he
          rcases List.mem_append.mp ht with ht | ht
          · exact ih t ht e he
          · rw [List.mem_singleton.mp ht] at he
            cases he
      | turn shared shared' pre post t o next a hrest hresponds =>
          intro u hu e he
          rcases List.mem_append.mp hu with hu | hu
          · exact ih u (List.mem_append_left _ hu) e he
          rcases List.mem_cons.mp hu with rfl | hu
          · rcases List.mem_append.mp he with he | he
            · exact ih t (List.mem_append_right _ List.mem_cons_self) e he
            · rw [List.mem_singleton.mp he]
              exact hevent _ _ _ hresponds hnow
          · exact ih u (List.mem_append_right _ (List.mem_cons_of_mem _ hu)) e he

/-- **A budget**: what is asked for is granted as long as something is left, and each grant
takes one. So the grants are as many as the budget allows of what is asked. -/
theorem Reachable.granted_eq_min (h : Reachable program mayCall responds s₀ s) {Q : σ → Prop}
    (hstart : Q s₀) (hkeep : ∀ s e s', responds s e s' → Q s → Q s') (left : σ → ℕ)
    {asks grants : Λ → Event Ans → Bool}
    (hgrant : ∀ s c e s', responds s e s' → Q s → left s' + (grants c e).toNat = left s ∧
      (grants c e = asks c e ∨ grants c e = false ∧ left s = 0)) :
    s.count grants + left s.shared = left s₀ ∧
      s.count grants = min (left s₀) (s.count asks) := by
  have hall : s.count grants + left s.shared = left s₀ ∧ s.count grants ≤ s.count asks ∧
      (s.count grants = s.count asks ∨ left s.shared = 0) := by
    induction h with
    | start => exact ⟨Nat.zero_add _, le_refl _, Or.inl rfl⟩
    | @step s _ hs hstep ih =>
        have hnow := hs.invariant hstart hkeep
        cases hstep with
        | call c _ =>
            rw [count_call grants _ s.shared, count_call asks _ s.shared]
            exact ih
        | turn shared shared' pre post t o next a hrest hresponds =>
            rw [count_turn grants shared' shared, count_turn asks shared' shared]
            obtain ⟨hleft, hcase⟩ := hgrant _ t.call _ _ hresponds hnow
            obtain ⟨htotal, hle, hdone⟩ := ih
            dsimp only at htotal hdone hleft ⊢
            rcases hcase with hsame | ⟨hnone, hzero⟩
            · rw [hsame] at hleft ⊢
              omega
            · rw [hnone] at hleft ⊢
              simp only [Bool.toNat_false] at hleft ⊢
              omega
  obtain ⟨htotal, hle, hdone⟩ := hall
  refine ⟨htotal, ?_⟩
  rcases hdone with hsame | hzero
  · rw [← hsame]
    omega
  · omega

/-- **What the shared state lets happen only once** happens once in all threads
together. -/
theorem Reachable.count_le_one (h : Reachable program mayCall responds s₀ s)
    {win : Λ → Event Ans → Bool} (taken : σ → Prop)
    (hwin : ∀ s c e s', responds s e s' → win c e = true → ¬ taken s ∧ taken s')
    (hkeep : ∀ s e s', responds s e s' → taken s → taken s') :
    s.count win ≤ 1 ∧ (¬ taken s.shared → s.count win = 0) := by
  induction h with
  | start => exact ⟨Nat.zero_le _, fun _ => rfl⟩
  | step _ hstep ih =>
      cases hstep with
      | call c _ =>
          rw [count_call _ _ s.shared]
          exact ih
      | turn shared shared' pre post t o next a hrest hresponds =>
          rw [count_turn win shared' shared]
          cases hw : win t.call ⟨o, a⟩ with
          | false =>
              refine ⟨ih.1, fun hnot => ih.2 fun htaken => hnot (hkeep _ _ _ hresponds htaken)⟩
          | true =>
              obtain ⟨hfree, htaken⟩ := hwin _ _ _ _ hresponds hw
              have hzero := ih.2 hfree
              rw [hzero]
              exact ⟨le_refl _, fun hnot => absurd htaken hnot⟩

/-- **What a thread finds taken, a thread has taken.** -/
theorem Reachable.taken_by (h : Reachable program mayCall responds s₀ s)
    {takes finds : Λ → Event Ans → Bool} (taken : σ → Prop) (hfree : ¬ taken s₀)
    (htakes : ∀ s c e s', responds s e s' → taken s' → taken s ∨ takes c e = true)
    (hfinds : ∀ s c e s', responds s e s' → finds c e = true → taken s) :
    (taken s.shared → 0 < s.count takes) ∧ (0 < s.count finds → 0 < s.count takes) := by
  induction h with
  | start => exact ⟨fun htaken => absurd htaken hfree, id⟩
  | @step s _ _ hstep ih =>
      cases hstep with
      | call c _ =>
          rw [count_call takes _ s.shared, count_call finds _ s.shared]
          exact ih
      | turn shared shared' pre post t o next a hrest hresponds =>
          rw [count_turn takes shared' shared, count_turn finds shared' shared]
          constructor
          · intro htaken
            rcases htakes _ t.call _ _ hresponds htaken with htaken | htakes
            · exact Nat.add_pos_left (ih.1 htaken) _
            · rw [htakes]
              exact Nat.succ_pos _
          · intro hfound
            rcases Nat.add_pos_iff_pos_or_pos.mp hfound with hfound | hfound
            · exact Nat.add_pos_left (ih.2 hfound) _
            · have hfinds_now : finds t.call ⟨o, a⟩ = true := by
                by_contra hnot
                rw [Bool.eq_false_iff.mpr hnot] at hfound
                cases hfound
              exact Nat.add_pos_left (ih.1 (hfinds _ t.call _ _ hresponds hfinds_now)) _

/-- **What comes and goes**: a level that some events raise by one and others lower by
one is the difference of the two numbers. -/
theorem Reachable.balance (h : Reachable program mayCall responds s₀ s) (level : σ → ℕ)
    {gains loses : Λ → Event Ans → Bool} (hzero : level s₀ = 0)
    (hstep : ∀ s c e s', responds s e s' →
      level s' + (loses c e).toNat = level s + (gains c e).toNat) :
    s.count loses + level s.shared = s.count gains := by
  induction h with
  | start => exact (Nat.zero_add _).trans hzero
  | @step s _ _ hturn ih =>
      cases hturn with
      | call c _ =>
          rw [count_call loses _ s.shared, count_call gains _ s.shared]
          exact ih
      | turn shared shared' pre post t o next a hrest hresponds =>
          rw [count_turn loses shared' shared, count_turn gains shared' shared]
          have hone := hstep _ t.call _ _ hresponds
          dsimp only at ih ⊢
          omega

/-- **A shared counter** is the number of the events it counts. -/
theorem Reachable.counter_eq (h : Reachable program mayCall responds s₀ s) (counter : σ → ℕ)
    {p : Λ → Event Ans → Bool} (hzero : counter s₀ = 0)
    (hstep : ∀ s c e s', responds s e s' → counter s' = counter s + (p c e).toNat) :
    counter s.shared = s.count p := by
  have hbalance : s.count (fun _ _ => false) + counter s.shared = s.count p :=
    h.balance counter hzero hstep
  have hnone : s.count (fun _ _ => false) = 0 := by simp [count]
  rwa [hnone, Nat.zero_add] at hbalance

/-- **What an event brings about for good** holds once it has happened. -/
theorem Reachable.after (h : Reachable program mayCall responds s₀ s)
    {p : Λ → Event Ans → Bool} {Q : σ → Prop}
    (hevent : ∀ s c e s', responds s e s' → p c e = true → Q s')
    (hkeep : ∀ s e s', responds s e s' → Q s → Q s') : 0 < s.count p → Q s.shared := by
  induction h with
  | start => exact fun h => absurd h (Nat.lt_irrefl 0)
  | @step s _ _ hturn ih =>
      cases hturn with
      | call c _ =>
          rw [count_call p _ s.shared]
          exact ih
      | turn shared shared' pre post t o next a hrest hresponds =>
          rw [count_turn p shared' shared]
          intro hpos
          cases hp : p t.call ⟨o, a⟩ with
          | true => exact hevent _ t.call _ _ hresponds hp
          | false =>
              rw [hp] at hpos
              exact hkeep _ _ _ hresponds (ih hpos)

/-- What makes a call possible, and lasts, holds of every call. -/
theorem Reachable.called (h : Reachable program mayCall responds s₀ s) {Q : σ → Λ → Prop}
    (hcall : ∀ s c, mayCall s c → Q s.shared c)
    (hkeep : ∀ s e s' c, responds s e s' → Q s c → Q s' c) :
    ∀ t ∈ s.threads, Q s.shared t.call := by
  induction h with
  | start =>
      intro t ht
      cases ht
  | @step s _ _ hstep ih =>
      cases hstep with
      | call c hmay =>
          intro t ht
          rcases List.mem_append.mp ht with ht | ht
          · exact ih t ht
          · rw [List.mem_singleton.mp ht]
            exact hcall s c hmay
      | turn shared shared' pre post t o next a hrest hresponds =>
          intro u hu
          refine hkeep _ _ _ _ hresponds ?_
          rcases List.mem_append.mp hu with hu | hu
          · exact ih u (List.mem_append_left _ hu)
          rcases List.mem_cons.mp hu with rfl | hu
          · exact ih t (List.mem_append_right _ List.mem_cons_self)
          · exact ih u (List.mem_append_right _ (List.mem_cons_of_mem _ hu))

/-- An invariant of the calls alone: a turn leaves them as they are. -/
theorem Reachable.calls_invariant (h : Reachable program mayCall responds s₀ s)
    {P : List Λ → Prop} (hnil : P [])
    (hcall : ∀ s c, mayCall s c → P s.calls → P (s.calls ++ [c])) : P s.calls := by
  induction h with
  | start => exact hnil
  | step _ hstep ih =>
      cases hstep with
      | call c hmay =>
          have hP := hcall _ c hmay ih
          simpa [calls] using hP
      | turn shared shared' pre post t o next a hrest hresponds =>
          simpa [calls] using ih

/-! ### What was done when -/

/-- What the thread with an index has done. -/
def doneBy (i : ℕ) (log : List (ℕ × Event Ans)) : List (Event Ans) :=
  (log.filter fun x => x.1 = i).map Prod.snd

@[simp] theorem doneBy_append (i : ℕ) (log log' : List (ℕ × Event Ans)) :
    doneBy i (log ++ log') = doneBy i log ++ doneBy i log' := by
  simp [doneBy]

@[simp] theorem doneBy_cons_self (i : ℕ) (e : Event Ans) (log : List (ℕ × Event Ans)) :
    doneBy i ((i, e) :: log) = e :: doneBy i log := by
  simp [doneBy]

theorem doneBy_cons_of_ne {i j : ℕ} (hij : j ≠ i) (e : Event Ans) (log : List (ℕ × Event Ans)) :
    doneBy i ((j, e) :: log) = doneBy i log := by
  simp [doneBy, hij]

theorem doneBy_eq_nil_iff {i : ℕ} {log : List (ℕ × Event Ans)} :
    doneBy i log = [] ↔ ∀ x ∈ log, x.1 ≠ i := by
  simp [doneBy, List.filter_eq_nil_iff]

/-- The last event of a thread is in the log, and behind it there are only others'. -/
theorem exists_of_doneBy_concat {i : ℕ} {log : List (ℕ × Event Ans)} {h : List (Event Ans)}
    {e : Event Ans} (hdone : doneBy i log = h ++ [e]) :
    ∃ pre mid, log = pre ++ (i, e) :: mid ∧ ∀ x ∈ mid, x.1 ≠ i := by
  induction log using List.reverseRecOn with
  | nil => simp [doneBy] at hdone
  | append_singleton log x ih =>
      obtain ⟨j, e'⟩ := x
      rw [doneBy_append] at hdone
      by_cases hij : j = i
      · subst hij
        rw [doneBy_cons_self] at hdone
        obtain ⟨-, he⟩ := List.append_inj' hdone rfl
        obtain rfl : e' = e := (List.cons.inj he).1
        refine ⟨log, [], rfl, ?_⟩
        intro x hx
        cases hx
      · rw [doneBy_cons_of_ne hij] at hdone
        obtain ⟨pre, mid, rfl, hmid⟩ := ih (by simpa [doneBy] using hdone)
        refine ⟨pre, mid ++ [(j, e')], by simp, ?_⟩
        intro x hx
        rcases List.mem_append.mp hx with hx | hx
        · exact hmid x hx
        · rw [List.mem_singleton.mp hx]
          exact hij

variable {log : List (ℕ × Event Ans)}

theorem Logged.reachable (h : Logged program mayCall responds s₀ log s) :
    Reachable program mayCall responds s₀ s := by
  induction h with
  | start => exact .start
  | call _ c hmay ih => exact ih.step (.call c hmay)
  | turn shared shared' pre post t o next a _ hrest hresponds ih =>
      exact ih.step (.turn shared shared' pre post t o next a hrest hresponds)

/-- **Every run has a log.** -/
theorem Reachable.logged (h : Reachable program mayCall responds s₀ s) :
    ∃ log, Logged program mayCall responds s₀ log s := by
  induction h with
  | start => exact ⟨[], .start⟩
  | step _ hstep ih =>
      obtain ⟨log, hlog⟩ := ih
      cases hstep with
      | call c hmay => exact ⟨log, .call hlog c hmay⟩
      | turn shared shared' pre post t o next a hrest hresponds =>
          exact ⟨_, .turn shared shared' pre post t o next a hlog hrest hresponds⟩

theorem Logged.index_lt (h : Logged program mayCall responds s₀ log s) :
    ∀ x ∈ log, x.1 < s.threads.length := by
  induction h with
  | start =>
      intro x hx
      cases hx
  | call _ c _ ih =>
      intro x hx
      have hlt := ih x hx
      rw [List.length_append]
      exact Nat.lt_add_right _ hlt
  | turn shared shared' pre post t o next a _ _ _ ih =>
      intro x hx
      rcases List.mem_append.mp hx with hx | hx
      · have hlt := ih x hx
        simpa using hlt
      · rw [List.mem_singleton.mp hx]
        simp

/-- **A thread's history** is its part of the log. -/
theorem Logged.history_eq (h : Logged program mayCall responds s₀ log s) {i : ℕ}
    {t : Thread Λ Ans α} (ht : s.threads[i]? = some t) : t.history = doneBy i log := by
  induction h generalizing i t with
  | start => simp at ht
  | @call log s hlog c _ ih =>
      rcases Nat.lt_trichotomy i s.threads.length with hi | hi | hi
      · rw [List.getElem?_append_left hi] at ht
        exact ih ht
      · subst hi
        rw [List.getElem?_concat_length] at ht
        obtain rfl := Option.some.inj ht
        -- nothing was done by a thread that has just come
        refine (doneBy_eq_nil_iff.mpr ?_).symm
        intro x hx
        exact Nat.ne_of_lt (hlog.index_lt x hx)
      · rw [List.getElem?_eq_none (by simpa using Nat.succ_le_of_lt hi)] at ht
        cases ht
  | turn shared shared' pre post u o next a _ _ _ ih =>
      rw [doneBy_append]
      by_cases hi : pre.length = i
      · subst hi
        have hu := ih (i := pre.length) (t := u) (by simp)
        rw [List.getElem?_append_right (le_refl _), Nat.sub_self] at ht
        obtain rfl := Option.some.inj ht
        rw [← hu, doneBy_cons_self]
        rfl
      · rw [doneBy_cons_of_ne hi]
        refine (ih ?_).trans (List.append_nil _).symm
        rw [← ht]
        rcases Nat.lt_or_gt_of_ne hi with hlt | hgt
        · have hsub : i - pre.length = (i - pre.length - 1) + 1 := by omega
          rw [List.getElem?_append_right hlt.le, List.getElem?_append_right hlt.le, hsub]
          rfl
        · rw [List.getElem?_append_left hgt, List.getElem?_append_left hgt]

end Pool

end KernelQ.Foundation
