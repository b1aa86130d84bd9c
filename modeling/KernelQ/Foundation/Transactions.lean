import KernelQ.Foundation.Service
import Mathlib.Data.List.Induction

/-!
# Transactions on one connection

The rule of the driver: when the database refuses a statement, the transaction is
aborted, and every later statement is refused until a rollback. A method that is
`Orderly` sends its statements, and ends with a commit or a rollback unless one is
refused. Such methods leave a connection usable as long as nobody sends anything
after a refusal, and no longer (`usable_iff`).
-/

namespace KernelQ.Foundation

/-- What is committed, what the open transaction sees, and whether it is aborted. -/
structure Connection (δ : Type*) where
  committed : δ
  working : δ
  aborted : Bool

def Connection.fresh {δ : Type*} (d : δ) : Connection δ := ⟨d, d, false⟩

/-- What a method raises: an error of its own, one of the driver before anything is
sent, a refused statement, or a statement in an aborted transaction. -/
inductive SessionError (ε ρ : Type*)
  | program (e : ε)
  | client (e : ρ)
  | server (e : ρ)
  | inFailedTransaction

def SessionError.ofDatabase {ε ρ : Type*} : SessionError ε ρ → Prop
  | program _ => False
  | _ => True

def Session (δ ε ρ α : Type*) := Connection δ → Except (SessionError ε ρ) α × Connection δ

namespace Session

variable {δ ε ρ α β κ : Type*}

def ret (a : α) : Session δ ε ρ α := fun c => (.ok a, c)

def raise (e : ε) : Session δ ε ρ α := fun c => (.error (.program e), c)

def andThen (p : Session δ ε ρ α) (f : α → Session δ ε ρ β) : Session δ ε ρ β := fun c =>
  match p c with
  | (.ok a, c) => f a c
  | (.error e, c) => (.error e, c)

/-- `cur.execute`; the driver may refuse the parameters. -/
def execute (parameters : Option ρ) (statement : δ → Except ρ (δ × α)) : Session δ ε ρ α := fun c =>
  match parameters with
  | some e => (.error (.client e), c)
  | none =>
      if c.aborted then (.error .inFailedTransaction, c)
      else
        match statement c.working with
        | .ok (d, a) => (.ok a, { c with working := d })
        | .error e => (.error (.server e), { c with aborted := true })

/-- A commit of an aborted transaction rolls it back. -/
def commit : Session δ ε ρ Unit := fun c =>
  (.ok (), if c.aborted then .fresh c.committed else .fresh c.working)

def rollback : Session δ ε ρ Unit := fun c => (.ok (), .fresh c.committed)

/-- One statement, and the end of its transaction. -/
def transact (parameters : Option ρ) (statement : δ → Except ρ (δ × α)) (keep : α → Bool) :
    Session δ ε ρ α :=
  (execute parameters statement).andThen fun a =>
    (if keep a then commit else rollback).andThen fun _ => ret a

/-- A result that is worked on without the database. -/
def map (f : α → β) (p : Session δ ε ρ α) : Session δ ε ρ β := p.andThen fun a => ret (f a)

/-- The method sends a statement if `sends`, and the database refuses one if
`refuses`. -/
structure Orderly (p : Session δ ε ρ α) (sends : Prop) (refuses : δ → Prop) : Prop where
  unsent : ¬ sends → ∃ r, ∀ c, p c = (r, c)
  aborted : sends → ∀ c, c.aborted = true → p c = (.error .inFailedTransaction, c)
  served : sends → ∀ d, ¬ refuses d → ∃ a d', p (.fresh d) = (.ok a, .fresh d')
  refused : ∀ d, refuses d → sends ∧ ∃ e c', p (.fresh d) = (.error (.server e), c') ∧
    c'.aborted = true ∧ c'.committed = d

variable {p : Session δ ε ρ α} {sends : Prop} {refuses : δ → Prop}

theorem map_apply (f : α → β) (p : Session δ ε ρ α) (c : Connection δ) :
    p.map f c = ((p c).1.map f, (p c).2) := by
  rw [Session.map, andThen]
  rcases p c with ⟨a | e, c'⟩ <;> rfl

theorem Orderly.map (h : Orderly p sends refuses) (f : α → β) :
    Orderly (p.map f) sends refuses where
  unsent hnot := by
    obtain ⟨r, hr⟩ := h.unsent hnot
    refine ⟨r.map f, fun c => ?_⟩
    rw [map_apply, hr]
  aborted hsends c hc := by
    rw [map_apply, h.aborted hsends c hc]
    rfl
  served hsends d hd := by
    obtain ⟨a, d', hp⟩ := h.served hsends d hd
    refine ⟨f a, d', ?_⟩
    rw [map_apply, hp]
    rfl
  refused d hd := by
    obtain ⟨hsends, e, c', hp, hc'⟩ := h.refused d hd
    refine ⟨hsends, e, c', ?_, hc'⟩
    rw [map_apply, hp]
    rfl

theorem Orderly.congr (h : Orderly p sends refuses) {sends' : Prop} {refuses' : δ → Prop}
    (hsends : sends ↔ sends') (hrefuses : ∀ d, refuses d ↔ refuses' d) :
    Orderly p sends' refuses' := by
  obtain rfl : sends = sends' := propext hsends
  obtain rfl : refuses = refuses' := funext fun d => propext (hrefuses d)
  exact h

/-- A check before anything is sent. -/
theorem Orderly.guard (h : Orderly p sends refuses) (bad : Prop) [Decidable bad] (e : ε) :
    Orderly (if bad then raise e else p) (¬ bad ∧ sends) fun d => ¬ bad ∧ refuses d := by
  by_cases hbad : bad
  · rw [if_pos hbad]
    exact
      { unsent := fun _ => ⟨_, fun c => rfl⟩
        aborted := fun hsends => absurd hbad hsends.1
        served := fun hsends => absurd hbad hsends.1
        refused := fun d hd => absurd hbad hd.1 }
  · rw [if_neg hbad]
    exact
      { unsent := fun hnot => h.unsent fun hsends => hnot ⟨hbad, hsends⟩
        aborted := fun hsends => h.aborted hsends.2
        served := fun hsends d hd => h.served hsends.2 d fun hrefuses => hd ⟨hbad, hrefuses⟩
        refused := fun d hd => by
          obtain ⟨hsends, hp⟩ := h.refused d hd.2
          exact ⟨⟨hbad, hsends⟩, hp⟩ }

/-- What one transaction does on a fresh connection. -/
theorem transact_fresh (statement : δ → Except ρ (δ × α)) (keep : α → Bool) (d : δ) :
    (transact none statement keep : Session δ ε ρ α) (.fresh d) =
      match statement d with
      | .ok (d', a) => (.ok a, .fresh (if keep a then d' else d))
      | .error e => (.error (.server e), ⟨d, d, true⟩) := by
  cases hstatement : statement d with
  | error e => simp [transact, andThen, execute, Connection.fresh, hstatement]
  | ok r =>
      obtain ⟨d', a⟩ := r
      by_cases hkeep : keep a
      · simp [transact, andThen, execute, Connection.fresh, hstatement, hkeep, commit, ret]
      · simp [transact, andThen, execute, Connection.fresh, hstatement, hkeep, rollback, ret]

/-- A transaction commits what its statement has written, or nothing. -/
theorem committed_transact (parameters : Option ρ) (statement : δ → Except ρ (δ × α))
    (keep : α → Bool) (d : δ) :
    ((transact parameters statement keep : Session δ ε ρ α) (.fresh d)).2.committed = d ∨
      ∃ d' a, statement d = .ok (d', a) ∧
        ((transact parameters statement keep : Session δ ε ρ α) (.fresh d)).2.committed = d' := by
  cases parameters with
  | some e => exact Or.inl rfl
  | none =>
      rw [transact_fresh]
      cases statement d with
      | error e => exact Or.inl rfl
      | ok r =>
          show (if keep r.2 then r.1 else d) = d ∨ _
          by_cases hkeep : keep r.2 = true
          · exact Or.inr ⟨r.1, r.2, rfl, if_pos hkeep⟩
          · exact Or.inl (if_neg hkeep)

theorem orderly_transact (parameters : Option ρ) (statement : δ → Except ρ (δ × α))
    (keep : α → Bool) :
    Orderly (transact parameters statement keep : Session δ ε ρ α) (parameters = none)
      fun d => parameters = none ∧ ∃ e, statement d = .error e where
  unsent hnot := by
    obtain ⟨e, rfl⟩ := Option.ne_none_iff_exists'.mp hnot
    exact ⟨_, fun c => rfl⟩
  aborted hsends c hc := by
    subst hsends
    simp only [transact, andThen, execute, hc, if_true]
  served hsends d hd := by
    subst hsends
    rw [transact_fresh]
    cases hstatement : statement d with
    | error e => exact absurd ⟨rfl, e, hstatement⟩ hd
    | ok r => exact ⟨_, _, rfl⟩
  refused d hd := by
    obtain ⟨rfl, e, hstatement⟩ := hd
    refine ⟨rfl, e, ⟨d, d, true⟩, ?_, rfl, rfl⟩
    rw [transact_fresh, hstatement]

/-! ## Sequences of calls -/

def service (call : κ → Session δ ε ρ α) :
    Service (Connection δ) κ (Except (SessionError ε ρ) α) :=
  ⟨fun c k => ((call k c).2, (call k c).1)⟩

/-- The call raises a database error. -/
def Raises (r : Except (SessionError ε ρ) α) : Prop := ∃ e, r = .error e ∧ e.ofDatabase

/-- A call that raises a database error changes nothing, and every later call does
and returns what it would on a fresh connection. -/
structure Usable (call : κ → Session δ ε ρ α) (d : δ) (ks : List κ) : Prop where
  unchanged : ∀ pre k post c, ks = pre ++ k :: post → c = (service call).after (.fresh d) pre →
    Raises (call k c).1 → (call k c).2.committed = c.committed
  asFresh : ∀ pre k mid k' post c c', ks = pre ++ k :: mid ++ k' :: post →
    c = (service call).after (.fresh d) pre → c' = (service call).after (.fresh d) (pre ++ k :: mid) →
    Raises (call k c).1 →
      (call k' c').1 = (call k' (.fresh c'.committed)).1 ∧
        (call k' c').2.committed = (call k' (.fresh c'.committed)).2.committed

/-- Nothing is sent any more once a statement has been refused. -/
def SilentAfterRefusal (call : κ → Session δ ε ρ α) (sends : κ → Prop) (refuses : κ → δ → Prop)
    (d : δ) (ks : List κ) : Prop :=
  ∀ pre k post, ks = pre ++ k :: post →
    refuses k ((service call).after (.fresh d) pre).committed → ∀ k' ∈ post, ¬ sends k'

section

variable {call : κ → Session δ ε ρ α} {sends : κ → Prop} {refuses : κ → δ → Prop} {d : δ}
  (h : ∀ k, Orderly (call k) (sends k) (refuses k))

include h

/-- Between calls, the connection is fresh or aborted. -/
theorem call_fresh_or_aborted (k : κ) {c : Connection δ}
    (hc : c = .fresh c.committed ∨ c.aborted = true) :
    (call k c).2 = .fresh (call k c).2.committed ∨ (call k c).2.aborted = true := by
  by_cases hsends : sends k
  · rcases hc with hc | hc
    · by_cases hrefuses : refuses k c.committed
      · obtain ⟨-, e, c', hp, haborted, -⟩ := (h k).refused _ hrefuses
        rw [hc, hp]
        exact Or.inr haborted
      · obtain ⟨a, d', hp⟩ := (h k).served hsends _ hrefuses
        rw [hc, hp]
        exact Or.inl rfl
    · rw [(h k).aborted hsends c hc]
      exact Or.inr hc
  · obtain ⟨r, hr⟩ := (h k).unsent hsends
    rw [hr]
    exact hc

theorem after_fresh_or_aborted (ks : List κ) :
    ((service call).after (.fresh d) ks) = .fresh ((service call).after (.fresh d) ks).committed ∨
      ((service call).after (.fresh d) ks).aborted = true := by
  have hinv : ∀ (c : Connection δ) (k : κ), c = .fresh c.committed ∨ c.aborted = true →
      (call k c).2 = .fresh (call k c).2.committed ∨ (call k c).2.aborted = true :=
    fun c k => call_fresh_or_aborted h k
  exact (service call).after_invariant hinv (Or.inl rfl) ks

/-- An aborted connection stays as it is. -/
theorem after_aborted {c : Connection δ} (hc : c.aborted = true) (ks : List κ) :
    (service call).after c ks = c := by
  induction ks generalizing c with
  | nil => rfl
  | cons k ks ih =>
      have hsame : (call k c).2 = c := by
        by_cases hsends : sends k
        · rw [(h k).aborted hsends c hc]
        · obtain ⟨r, hr⟩ := (h k).unsent hsends
          rw [hr]
      rw [Service.after]
      show (service call).after (call k c).2 ks = c
      rw [hsame]
      exact ih hc

/-- A refused statement is a database error that aborts the transaction and changes
nothing that is committed. -/
theorem call_refused {k : κ} {c : Connection δ} (hrefuses : refuses k c.committed)
    (hc : c = .fresh c.committed ∨ c.aborted = true) :
    Raises (call k c).1 ∧ (call k c).2.aborted = true ∧
      (call k c).2.committed = c.committed := by
  obtain ⟨hsends, e, c', hp, haborted, hcommitted⟩ := (h k).refused _ hrefuses
  rcases hc with hc | hc
  · rw [hc, hp]
    exact ⟨⟨_, rfl, trivial⟩, haborted, hcommitted⟩
  · rw [(h k).aborted hsends c hc]
    exact ⟨⟨_, rfl, trivial⟩, hc, rfl⟩

/-- A database error changes nothing that is committed. -/
theorem committed_of_raises {k : κ} {c : Connection δ} (hraises : Raises (call k c).1)
    (hc : c = .fresh c.committed ∨ c.aborted = true) :
    (call k c).2.committed = c.committed := by
  by_cases hrefuses : refuses k c.committed
  · exact (call_refused h hrefuses hc).2.2
  by_cases hsends : sends k
  · rcases hc with hc | hc
    · obtain ⟨a, d', hp⟩ := (h k).served hsends _ hrefuses
      obtain ⟨e, he, -⟩ := hraises
      rw [hc, hp] at he
      cases he
    · rw [(h k).aborted hsends c hc]
  · obtain ⟨r, hr⟩ := (h k).unsent hsends
    rw [hr]

/-- An aborted connection has refused some statement. -/
theorem exists_refused (ks : List κ)
    (haborted : ((service call).after (.fresh d) ks).aborted = true) :
    ∃ pre k post, ks = pre ++ k :: post ∧
      refuses k ((service call).after (.fresh d) pre).committed := by
  induction ks using List.reverseRecOn with
  | nil => cases haborted
  | append_singleton ks k ih =>
      by_cases hbefore : ((service call).after (.fresh d) ks).aborted = true
      · obtain ⟨pre, k', post, rfl, hrefuses⟩ := ih hbefore
        exact ⟨pre, k', post ++ [k], by simp, hrefuses⟩
      -- the last call has aborted the transaction
      refine ⟨ks, k, [], rfl, ?_⟩
      by_contra hnot
      have hfresh := (after_fresh_or_aborted h (d := d) ks).resolve_right hbefore
      rw [Service.after_append] at haborted
      change (call k ((service call).after (.fresh d) ks)).2.aborted = true at haborted
      by_cases hsends : sends k
      · obtain ⟨a, d', hp⟩ := (h k).served hsends _ hnot
        rw [hfresh, hp] at haborted
        cases haborted
      · obtain ⟨r, hr⟩ := (h k).unsent hsends
        rw [hr] at haborted
        exact hbefore haborted

/-- **Once a statement has been refused**, the transaction is aborted for good. -/
theorem aborted_iff (ks : List κ) :
    ((service call).after (.fresh d) ks).aborted = true ↔
      ∃ pre k post, ks = pre ++ k :: post ∧
        refuses k ((service call).after (.fresh d) pre).committed := by
  constructor
  · exact exists_refused h ks
  · rintro ⟨pre, k, post, rfl, hrefuses⟩
    obtain ⟨-, haborted, -⟩ := call_refused h hrefuses (after_fresh_or_aborted h pre)
    rw [Service.after_append]
    change ((service call).after (call k _).2 post).aborted = true
    rw [after_aborted h haborted]
    exact haborted

/-- **A connection is usable exactly as long as nothing is sent after a refusal.** -/
theorem usable_iff (ks : List κ) :
    Usable call d ks ↔ SilentAfterRefusal call sends refuses d ks := by
  constructor
  · intro husable pre k post hks hrefuses k' hk' hsends
    obtain ⟨mid, post', rfl⟩ := List.append_of_mem hk'
    have hpre := after_fresh_or_aborted h (d := d) pre
    obtain ⟨hraises, haborted, -⟩ := call_refused h hrefuses hpre
    have hafter : (service call).after (.fresh d) (pre ++ k :: mid) =
        (call k ((service call).after (.fresh d) pre)).2 := by
      rw [Service.after_append]
      exact after_aborted h haborted mid
    obtain ⟨hsame, -⟩ := husable.asFresh pre k mid k' post' _ _ (by simp [hks]) rfl hafter.symm
      hraises
    rw [(h k').aborted hsends _ haborted] at hsame
    -- a fresh connection answers, or refuses the statement itself
    generalize (call k ((service call).after (.fresh d) pre)).2.committed = d' at hsame
    by_cases hrefuses' : refuses k' d'
    · obtain ⟨-, e, c', hp, -⟩ := (h k').refused _ hrefuses'
      rw [hp] at hsame
      cases hsame
    · obtain ⟨a, d'', hp⟩ := (h k').served hsends _ hrefuses'
      rw [hp] at hsame
      cases hsame
  · intro hsilent
    constructor
    · rintro pre k post c - rfl hraises
      exact committed_of_raises h hraises (after_fresh_or_aborted h pre)
    · rintro pre k mid k' post c c' rfl rfl rfl -
      rcases after_fresh_or_aborted h (d := d) (pre ++ k :: mid) with hfresh | haborted
      · rw [← hfresh]
        exact ⟨rfl, rfl⟩
      · obtain ⟨pre', refused, post', hsplit, hrefuses⟩ := exists_refused h _ haborted
        have hunsent : ¬ sends k' := by
          apply hsilent pre' refused (post' ++ k' :: post) _ hrefuses k' (by simp)
          simp [hsplit]
        obtain ⟨r, hr⟩ := (h k').unsent hunsent
        rw [hr, hr]
        exact ⟨rfl, rfl⟩

end

end Session

end KernelQ.Foundation
