import KernelQ.Foundation.Threads
import KernelQ.Worker.Faults
import Mathlib.Data.List.Nodup

/-!
# The budget of faults

Any number of calls of `Inject`, at any points, share one injector. The locked section alone
looks at the budget and takes from it, so it takes exactly what there is
(`budgetKept`), whatever the order of the calls and of what they do afterwards.
-/

namespace KernelQ.Worker.Faults

open KernelQ.Foundation

variable {Ω : Type}

abbrev FaultEvent (Ω : Type) := Prog.Event (FaultOp.Ans (Ω := Ω))

abbrev Calls (Ω : Type) := Pool (Injector Ω) Point (FaultOp.Ans (Ω := Ω)) InjectResult

namespace Injector

/-- The answer to an operation; where it is a wait, the context is done with this error, if it
is done before the timer. -/
def answer (err : Option String) (i : Injector Ω) : (o : FaultOp Ω) → Option (Injector Ω × o.Ans)
  | .take point =>
      match i with
      | .configurable (some inj) =>
          some (.configurable (some (inj.take point).1), (inj.take point).2)
      | _ => none
  | .onInject _ _ _ _ => some (i, ())
  | .wait _ => some (i, err)

def Responds (i : Injector Ω) (e : FaultEvent Ω) (i' : Injector Ω) : Prop :=
  ∃ err, i.answer err e.1 = some (i', e.2)

/-- Any number of calls of `Inject`, at any points and at any time. -/
def Reachable (i : Injector Ω) : Calls Ω → Prop :=
  Pool.Reachable i.inject (fun _ _ => True) Responds i

/-- What is left of the budget. -/
def left : Injector Ω → ℤ
  | .configurable (some inj) => inj.count
  | _ => 0

end Injector

/-! ## Events -/

/-- The locked section of a call at this point. -/
def asks (point : Point) : FaultEvent Ω → Bool
  | ⟨.take point', _⟩ => decide (point' = point)
  | _ => false

/-- A locked section that takes a fault. -/
def fires (point : Point) : FaultEvent Ω → Bool
  | ⟨.take point', some _⟩ => decide (point' = point)
  | _ => false

/-- A locked section that leaves `n` faults. -/
def leaves (n : ℤ) : FaultEvent Ω → Bool
  | ⟨.take _, some fault⟩ => decide (fault.remaining = n)
  | _ => false

/-- What the observer is told. -/
def report? : FaultEvent Ω → Option ℤ
  | ⟨.onInject _ _ _ remaining, _⟩ => some remaining
  | _ => none

def reports (n : ℤ) (e : FaultEvent Ω) : Bool := decide (report? e = some n)

def asked (s : Calls Ω) (point : Point) : ℕ := s.count fun _ => asks point

def fired (s : Calls Ω) (point : Point) : ℕ := s.count fun _ => fires point

/-- All that the observer has been told. -/
def reported (s : Calls Ω) : List ℤ := s.threads.flatMap fun t => t.history.filterMap report?

/-- Some run of the injector has a fault in it. -/
def Injector.Fires (i : Injector Ω) : Prop := ∃ s point, i.Reachable s ∧ 0 < fired s point

/-- How a fault of this mode shows. -/
def Shows (mode : Mode) (delay : Int64) (point : Point) (r : InjectResult)
    (h : List (FaultEvent Ω)) : Prop :=
  if mode = modeDelay then
    ∃ err : Option String, ⟨.wait delay, err⟩ ∈ h ∧ r = .returned (err.map .context)
  else if mode = modePanic then
    r = .panicked (GoText.ofString "kernelq injected panic at " ++ point)
  else r = .returned (some (.injected point))

/-- **The budget is kept** in a state of the calls. -/
structure BudgetKept (cfg : Config) (s : Calls Ω) : Prop where
  soFar : fired s cfg.point = min cfg.count.toNat (asked s cfg.point)
  /-- Once all calls have been through their locked sections, all of them count. -/
  fired : (∀ t ∈ s.threads, t.history ≠ []) →
    fired s cfg.point = min cfg.count.toNat (s.calls.count cfg.point)
  elsewhere : ∀ point, point ≠ cfg.point → Faults.fired s point = 0
  reported : (reported s).Nodup
  remaining : ∃ inj, s.shared = .configurable (some inj) ∧
    inj.remaining + Faults.fired s cfg.point = cfg.count
  /-- A call that has returned shows a fault exactly if it has taken one. -/
  shown : ∀ t ∈ s.threads, ∀ r, t.rest = .ret r →
    (t.history.any (fires t.call) = true ∧ Shows cfg.mode cfg.delay t.call r t.history) ∨
      t.history.any (fires t.call) = false ∧ r = .returned none

/-! ## One call -/

/-- What comes behind a locked section that has taken a fault: a report of it at most, and no
other locked section. -/
structure Follows (fault : Fault Ω) (rest : List (FaultEvent Ω)) : Prop where
  asks : ∀ e ∈ rest, ∀ point, asks point e = false
  reports : ∀ n, rest.countP (reports n) ≤ (decide (fault.remaining = n)).toNat

/-- A call goes through one locked section, and reports what it has taken there. -/
structure Orderly (point : Point) (h : List (FaultEvent Ω)) : Prop where
  asks : h ≠ [] → ∀ p, h.countP (asks p) = (decide (point = p)).toNat
  reports : ∀ n, h.countP (reports n) ≤ h.countP (leaves n)

/-- What a call has done when it returns. -/
def Outcome (point : Point) (r : InjectResult) (h : List (FaultEvent Ω)) : Prop :=
  h = [⟨.take point, none⟩] ∧ r = .returned none ∨
    ∃ fault rest, h = ⟨.take point, some fault⟩ :: rest ∧ Follows fault rest ∧
      Shows fault.mode fault.delay point r rest

theorem Shows.mono {mode : Mode} {delay : Int64} {point : Point} {r : InjectResult}
    {h h' : List (FaultEvent Ω)} (hshows : Shows mode delay point r h) (hsub : h ⊆ h') :
    Shows mode delay point r h' := by
  unfold Shows at hshows ⊢
  split at hshows
  · rename_i hdelay
    obtain ⟨err, herr, hr⟩ := hshows
    rw [if_pos hdelay]
    exact ⟨err, hsub herr, hr⟩
  · rename_i hdelay
    rw [if_neg hdelay]
    exact hshows

theorem Follows.nil (fault : Fault Ω) : Follows fault [] where
  asks := by
    intro e he
    cases he
  reports n := Nat.zero_le _

theorem Follows.wait {fault : Fault Ω} {rest : List (FaultEvent Ω)} (h : Follows fault rest)
    (delay : Int64) (err : Option String) : Follows fault (rest ++ [⟨.wait delay, err⟩]) where
  asks := by
    intro e he point
    rcases List.mem_append.mp he with he | he
    · exact h.asks e he point
    · rw [List.mem_singleton.mp he]
      rfl
  reports n := by
    rw [List.countP_append]
    exact h.reports n

theorem Follows.report (fault : Fault Ω) (observer : Ω) (point : Point) (mode : Mode) :
    Follows fault [⟨.onInject observer point mode fault.remaining, ()⟩] where
  asks := by
    intro e he p
    rw [List.mem_singleton.mp he]
    rfl
  reports n := by
    rw [List.countP_singleton]
    by_cases hn : fault.remaining = n <;> simp [Faults.reports, report?, hn]

theorem Follows.orderly {fault : Fault Ω} {rest : List (FaultEvent Ω)} (h : Follows fault rest)
    (point : Point) : Orderly point (⟨.take point, some fault⟩ :: rest) where
  asks := by
    intro _ p
    have hrest : rest.countP (Faults.asks p) = 0 := by
      apply List.countP_eq_zero.mpr
      intro e he
      rw [h.asks e he p]
      exact Bool.false_ne_true
    rw [List.countP_cons, hrest]
    by_cases hp : point = p <;> simp [Faults.asks, hp]
  reports n := by
    have hsilent : Faults.reports n (⟨.take point, some fault⟩ : FaultEvent Ω) = false := rfl
    have hleaves : leaves n (⟨.take point, some fault⟩ : FaultEvent Ω) =
        decide (fault.remaining = n) := rfl
    rw [List.countP_cons_of_neg (by simp [hsilent]), List.countP_cons, hleaves]
    refine (h.reports n).trans ?_
    cases decide (fault.remaining = n) with
    | true => exact Nat.le_add_left 1 _
    | false => exact Nat.zero_le _

theorem always_manifest {fault : Fault Ω} {rest : List (FaultEvent Ω)} (h : Follows fault rest)
    (point : Point) :
    (ConfigurableInjector.manifest point fault).Always (Orderly point) (Outcome point)
      (⟨.take point, some fault⟩ :: rest) := by
  rw [ConfigurableInjector.manifest]
  split
  · rename_i hdelay
    refine .op (h.orderly point) fun err => ?_
    have hwait := h.wait fault.delay err
    refine .ret (hwait.orderly point) (Or.inr ⟨fault, _, rfl, hwait, ?_⟩)
    rw [Shows, if_pos hdelay]
    exact ⟨err, List.mem_append_right _ (List.mem_singleton_self _), rfl⟩
  · rename_i hdelay
    split
    · rename_i hpanic
      refine .ret (h.orderly point) (Or.inr ⟨fault, rest, rfl, h, ?_⟩)
      rw [Shows, if_neg hdelay, if_pos hpanic]
    · rename_i hpanic
      refine .ret (h.orderly point) (Or.inr ⟨fault, rest, rfl, h, ?_⟩)
      rw [Shows, if_neg hdelay, if_neg hpanic]

theorem always_inject (inj : ConfigurableInjector Ω) (point : Point) :
    (ConfigurableInjector.inject (some inj) point).Always (Orderly point) (Outcome point) [] := by
  rw [ConfigurableInjector.inject]
  refine .op ⟨fun h => absurd rfl h, fun _ => le_refl _⟩ fun a => ?_
  cases a with
  | none =>
      refine .ret ⟨fun _ p => ?_, fun _ => Nat.zero_le _⟩ (Or.inl ⟨rfl, rfl⟩)
      by_cases hp : point = p <;> simp [asks, hp]
  | some fault =>
      have hnil := Follows.nil fault
      cases hobserver : fault.observer with
      | none =>
          simp only [hobserver]
          exact always_manifest hnil point
      | some observer =>
          simp only [hobserver]
          exact .op (hnil.orderly point) fun _ =>
            always_manifest (.report fault observer point fault.mode) point

/-! ## One operation -/

theorem asks_iff {point : Point} {e : FaultEvent Ω} :
    asks point e = true ↔ ∃ a, e = ⟨.take point, a⟩ := by
  obtain ⟨o, a⟩ := e
  cases o with
  | take point' =>
      constructor
      · intro h
        obtain rfl := of_decide_eq_true h
        exact ⟨a, rfl⟩
      · rintro ⟨a', h⟩
        cases h
        exact decide_eq_true rfl
  | _ => simp [asks]

theorem fires_iff {point : Point} {e : FaultEvent Ω} :
    fires point e = true ↔ ∃ fault, e = ⟨.take point, some fault⟩ := by
  obtain ⟨o, a⟩ := e
  cases o with
  | take point' =>
      cases a with
      | none => simp [fires]
      | some fault =>
          constructor
          · intro h
            obtain rfl := of_decide_eq_true h
            exact ⟨fault, rfl⟩
          · rintro ⟨fault', h⟩
            cases h
            exact decide_eq_true rfl
  | _ => simp [fires]

theorem leaves_iff {n : ℤ} {e : FaultEvent Ω} :
    leaves n e = true ↔ ∃ point fault, e = ⟨.take point, some fault⟩ ∧ fault.remaining = n := by
  obtain ⟨o, a⟩ := e
  cases o with
  | take point =>
      cases a with
      | none => simp [leaves]
      | some fault =>
          constructor
          · intro h
            exact ⟨point, fault, rfl, of_decide_eq_true h⟩
          · rintro ⟨point', fault', h, hn⟩
            cases h
            exact decide_eq_true hn
  | _ => simp [leaves]

/-- **What an operation can do.** -/
theorem responds_cases {i i' : Injector Ω} {e : FaultEvent Ω} (h : i.Responds e i') :
    (∃ inj point, i = .configurable (some inj) ∧ (point ≠ inj.point ∨ inj.count ≤ 0) ∧
        e = ⟨.take point, none⟩ ∧ i' = i) ∨
      (∃ inj, i = .configurable (some inj) ∧ 0 < inj.count ∧
        e = ⟨.take inj.point, some ⟨inj.count - 1, inj.mode, inj.delay, inj.observer⟩⟩ ∧
        i' = .configurable (some { inj with count := inj.count - 1 })) ∨
      (∀ point a, e ≠ ⟨.take point, a⟩) ∧ i' = i := by
  obtain ⟨o, a⟩ := e
  obtain ⟨err, hanswer⟩ := h
  cases o with
  | take point =>
      rcases i with _ | _ | inj
      · cases hanswer
      · cases hanswer
      · simp only [Injector.answer, ConfigurableInjector.take] at hanswer
        split at hanswer
        · rename_i hnone
          cases hanswer
          exact Or.inl ⟨inj, point, rfl, hnone, rfl, rfl⟩
        · rename_i htake
          rw [not_or, not_not, not_le] at htake
          obtain ⟨rfl, hpos⟩ := htake
          cases hanswer
          exact Or.inr (Or.inl ⟨inj, rfl, hpos, rfl, rfl⟩)
  | onInject observer point mode remaining =>
      cases hanswer
      exact Or.inr (Or.inr ⟨fun _ _ => nofun, rfl⟩)
  | wait delay =>
      cases hanswer
      exact Or.inr (Or.inr ⟨fun _ _ => nofun, rfl⟩)

/-- The injector that `New` has made for the configuration, with some of the budget left. -/
def Armed (cfg : Config) (i : Injector Ω) : Prop :=
  ∃ inj, i = .configurable (some inj) ∧ inj.point = cfg.point ∧ inj.mode = cfg.mode ∧
    inj.delay = cfg.delay ∧ 0 ≤ inj.count

variable {cfg : Config} {i i' : Injector Ω} {e : FaultEvent Ω}

theorem Armed.responds (h : i.Responds e i') (hi : Armed cfg i) : Armed cfg i' := by
  rcases responds_cases h with ⟨inj, point, -, -, -, rfl⟩ | ⟨inj, rfl, hpos, -, rfl⟩ | ⟨-, rfl⟩
  · exact hi
  · obtain ⟨inj', hinj, hpoint, hmode, hdelay, -⟩ := hi
    cases hinj
    exact ⟨_, rfl, hpoint, hmode, hdelay, by dsimp only; omega⟩
  · exact hi

/-- What is taken is a fault as it has been configured. -/
theorem Armed.fault (h : i.Responds e i') (hi : Armed cfg i) :
    ∀ point fault, e = ⟨.take point, some fault⟩ →
      point = cfg.point ∧ fault.mode = cfg.mode ∧ fault.delay = cfg.delay := by
  intro point fault he
  rcases responds_cases h with ⟨inj, point', -, -, rfl, -⟩ | ⟨inj, rfl, -, rfl, -⟩ | ⟨hnot, -⟩
  · cases he
  · obtain ⟨inj', hinj, hpoint, hmode, hdelay, -⟩ := hi
    cases hinj
    cases he
    exact ⟨hpoint, hmode, hdelay⟩
  · exact absurd he (hnot point (some fault))

/-- **The locked section** takes one of what is left, if it is asked for at the point. -/
theorem Armed.granted (h : i.Responds e i') (hi : Armed cfg i) :
    i'.left.toNat + (fires cfg.point e).toNat = i.left.toNat ∧
      (fires cfg.point e = asks cfg.point e ∨ fires cfg.point e = false ∧ i.left.toNat = 0) := by
  rcases responds_cases h with ⟨inj, point, rfl, hnone, rfl, rfl⟩ | ⟨inj, rfl, hpos, rfl, rfl⟩ |
    ⟨hnot, rfl⟩
  · refine ⟨rfl, ?_⟩
    obtain ⟨inj', hinj, hpoint, -⟩ := hi
    cases hinj
    rcases hnone with hne | hzero
    · left
      rw [hpoint] at hne
      exact (decide_eq_false hne).symm
    · exact Or.inr ⟨rfl, Int.toNat_of_nonpos hzero⟩
  · obtain ⟨inj', hinj, hpoint, -⟩ := hi
    cases hinj
    have hfires : fires cfg.point (⟨.take inj.point, some ⟨inj.count - 1, inj.mode, inj.delay,
        inj.observer⟩⟩ : FaultEvent Ω) = true := decide_eq_true hpoint
    have hasks : asks cfg.point (⟨.take inj.point, some ⟨inj.count - 1, inj.mode, inj.delay,
        inj.observer⟩⟩ : FaultEvent Ω) = true := decide_eq_true hpoint
    rw [hfires, hasks]
    refine ⟨?_, Or.inl rfl⟩
    show (inj.count - 1).toNat + 1 = inj.count.toNat
    omega
  · have hfires : fires cfg.point e = false := by
      rw [Bool.eq_false_iff, Ne, fires_iff]
      rintro ⟨fault, he⟩
      exact hnot _ _ he
    have hasks : asks cfg.point e = false := by
      rw [Bool.eq_false_iff, Ne, asks_iff]
      rintro ⟨a, he⟩
      exact hnot _ _ he
    rw [hfires, hasks]
    exact ⟨rfl, Or.inl rfl⟩

/-- A number that is left is left once: it is gone afterwards. -/
theorem left_of_leaves (h : i.Responds e i') {n : ℤ} (hn : leaves n e = true) :
    ¬ i.left ≤ n ∧ i'.left ≤ n := by
  obtain ⟨point, fault, rfl, rfl⟩ := leaves_iff.mp hn
  rcases responds_cases h with ⟨inj, point', -, -, he, -⟩ | ⟨inj, rfl, -, he, rfl⟩ | ⟨hnot, -⟩
  · cases he
  · cases he
    show ¬ inj.count ≤ inj.count - 1 ∧ inj.count - 1 ≤ inj.count - 1
    omega
  · exact absurd rfl (hnot point (some fault))

theorem left_le (h : i.Responds e i') : i'.left ≤ i.left := by
  rcases responds_cases h with ⟨inj, point, -, -, -, rfl⟩ | ⟨inj, rfl, -, -, rfl⟩ | ⟨-, rfl⟩
  · exact le_refl _
  · show inj.count - 1 ≤ inj.count
    omega
  · exact le_refl _

/-! ## All calls -/

variable {s : Calls Ω} {opts : List (InjectorOption Ω)}

theorem foldl_apply (opts : List (InjectorOption Ω)) (inj : ConfigurableInjector Ω) :
    ∃ observer, opts.foldl (fun inj opt => opt.apply inj) inj = { inj with observer } := by
  induction opts generalizing inj with
  | nil => exact ⟨inj.observer, rfl⟩
  | cons opt opts ih =>
      obtain ⟨observer, h⟩ := ih (opt.apply inj)
      exact ⟨observer, h⟩

/-- What `New` makes of an enabled configuration that it accepts. -/
theorem eq_of_newInjector (henabled : cfg.enabled = true) (h : newInjector cfg opts = .ok i) :
    0 ≤ cfg.count ∧ ∃ observer, i = .configurable (some
      { point := cfg.point, mode := cfg.mode, count := cfg.count, delay := cfg.delay,
        observer }) := by
  simp only [newInjector, henabled, Bool.not_true, Bool.false_eq_true, if_false,
    Config.validateEnabled] at h
  split at h
  · cases h
  · rename_i hvalid
    split at hvalid
    · cases hvalid
    split at hvalid
    · cases hvalid
    split at hvalid
    · cases hvalid
    · rename_i hcount
      obtain ⟨observer, hopts⟩ := foldl_apply opts (⟨cfg.point, cfg.mode, cfg.count, cfg.delay,
        none⟩ : ConfigurableInjector Ω)
      rw [hopts] at h
      cases h
      exact ⟨not_lt.mp hcount, observer, rfl⟩

theorem orderly_of_reachable (henabled : cfg.enabled = true)
    (hnew : newInjector cfg opts = .ok i) (hs : i.Reachable s) :
    ∀ t ∈ s.threads, Orderly t.call t.history ∧
      ∀ r, t.rest = .ret r → Outcome t.call r t.history := by
  intro t ht
  obtain ⟨-, observer, rfl⟩ := eq_of_newInjector henabled hnew
  exact Pool.Reachable.always hs (fun point => always_inject _ point) ht

theorem asked_eq_calls (horderly : ∀ t ∈ s.threads, Orderly t.call t.history)
    (hentered : ∀ t ∈ s.threads, t.history ≠ []) (point : Point) :
    asked s point = s.calls.count point := by
  have hasks : ∀ t ∈ s.threads,
      t.history.countP (asks point) = (decide (t.call = point)).toNat :=
    fun t ht => (horderly t ht).asks (hentered t ht) point
  rw [asked, Pool.count_eq_threads fun t ht => by rw [hasks t ht]; exact Bool.toNat_le _,
    Pool.calls, List.count, List.countP_map]
  apply List.countP_congr
  intro t ht
  rw [List.any_eq_true, ← List.countP_pos_iff, hasks t ht]
  by_cases hcall : t.call = point <;> simp [hcall]

/-- **Reports are distinct**: a number is reported by whoever has left it, and is left once. -/
theorem reported_nodup (horderly : ∀ t ∈ s.threads, Orderly t.call t.history)
    (hs : i.Reachable s) : (reported s).Nodup := by
  rw [List.nodup_iff_count_le_one]
  intro n
  have hcount : (reported s).count n = s.count fun _ => reports n := by
    rw [reported, List.count_flatMap, Pool.count]
    congr 1
    apply List.map_congr_left
    intro t _
    show (t.history.filterMap report?).count n = t.history.countP (reports n)
    rw [List.count_filterMap]
    apply List.countP_congr
    intro e _
    simp [reports]
  have honce : s.count (fun _ => leaves n) ≤ 1 :=
    (Pool.Reachable.count_le_one hs (fun i => i.left ≤ n)
      (fun i _ e i' h hn => left_of_leaves h hn)
      (fun i e i' h hle => (left_le h).trans hle)).1
  rw [hcount]
  exact (Pool.count_le fun t ht => (horderly t ht).reports n).trans honce

/-- **The budget is kept** by all calls together, in whatever order their operations come. -/
theorem budgetKept (henabled : cfg.enabled = true) (hnew : newInjector cfg opts = .ok i)
    (hs : i.Reachable s) : BudgetKept cfg s := by
  have horderly := orderly_of_reachable henabled hnew hs
  obtain ⟨hcount, observer, hi⟩ := eq_of_newInjector henabled hnew
  have harmed : Armed cfg i := ⟨_, hi, rfl, rfl, rfl, hcount⟩
  obtain ⟨inj, hshared, -, -, -, hnonneg⟩ := Pool.Reachable.invariant hs harmed
    fun _ _ _ hresponds hi => hi.responds hresponds
  obtain ⟨hleft, hmin⟩ := Pool.Reachable.granted_eq_min hs harmed
    (fun _ _ _ hresponds hi => hi.responds hresponds) (fun i => i.left.toNat)
    fun _ _ _ _ hresponds hi => hi.granted hresponds
  have hfaults := Pool.Reachable.events hs harmed
    (fun _ _ _ hresponds hi => hi.responds hresponds) fun _ _ _ hresponds hi => hi.fault hresponds
  have hbudget : i.left = cfg.count := by rw [hi]; rfl
  rw [hbudget] at hleft hmin
  constructor
  case soFar => exact hmin
  case fired =>
    intro hentered
    rw [← asked_eq_calls (fun t ht => (horderly t ht).1) hentered]
    exact hmin
  case elsewhere =>
    intro point hne
    apply Nat.eq_zero_of_not_pos
    rw [fired, Pool.count_pos_iff]
    rintro ⟨t, ht, e, he, hfires⟩
    obtain ⟨fault, rfl⟩ := fires_iff.mp hfires
    exact hne (hfaults t ht _ he point fault rfl).1
  case reported => exact reported_nodup (fun t ht => (horderly t ht).1) hs
  case remaining =>
    refine ⟨inj, hshared, ?_⟩
    rw [hshared] at hleft
    show inj.count + (fired s cfg.point : ℤ) = cfg.count
    change fired s cfg.point + inj.count.toNat = cfg.count.toNat at hleft
    omega
  case shown =>
    intro t ht r hr
    rcases (horderly t ht).2 r hr with ⟨hhistory, hresult⟩ | ⟨fault, rest, hhistory, -, hshows⟩
    · right
      rw [hhistory]
      exact ⟨rfl, hresult⟩
    · left
      have he : (⟨.take t.call, some fault⟩ : FaultEvent Ω) ∈ t.history := by
        rw [hhistory]
        exact List.mem_cons_self
      obtain ⟨-, hmode, hdelay⟩ := hfaults t ht _ he t.call fault rfl
      refine ⟨List.any_eq_true.mpr ⟨_, he, fires_iff.mpr ⟨fault, rfl⟩⟩, ?_⟩
      rw [hmode, hdelay] at hshows
      rw [hhistory]
      exact hshows.mono fun _ h => List.mem_cons_of_mem _ h

theorem not_fires_noop : ¬ (.noop : Injector Ω).Fires := by
  rintro ⟨s, point, hs, hfired⟩
  obtain ⟨t, ht, e, he, -⟩ := Pool.count_pos_iff.mp hfired
  have hsilent : ∀ point, ((.noop : Injector Ω).inject point).Always (fun h => h = [])
      (fun _ _ => True) [] := fun _ => .ret rfl trivial
  rw [(Pool.Reachable.always hs hsilent ht).1] at he
  cases he

/-- **Faults are injected exactly as configured**, and by an injector that has been configured
from an environment only where it says that it is no production. -/
theorem faults_exact :
    (∀ (cfg : Config) (opts : List (InjectorOption Ω)) (i : Injector Ω), cfg.enabled = true →
      newInjector cfg opts = .ok i → ∀ s, i.Reachable s → BudgetKept cfg s) ∧
    ∀ (U : UnicodeTables) (getenv : String → GoText) (cfg : Config)
      (opts : List (InjectorOption Ω)) (i : Injector Ω), loadConfig U getenv = .ok cfg →
      newInjector cfg opts = .ok i → i.Fires →
        GoText.toLower U (GoText.trimSpace (getenv "KERNELQ_ENVIRONMENT")) = [] ∨
          GoText.toLower U (GoText.trimSpace (getenv "KERNELQ_ENVIRONMENT")) ∈
            nonProductionNames := by
  constructor
  · intro cfg opts i henabled hnew s hs
    exact budgetKept henabled hnew hs
  · intro U getenv cfg opts i hload hnew hfires
    cases henabled : cfg.enabled with
    | true => exact explicit_of_enabled hload henabled
    | false =>
        rw [newInjector, henabled] at hnew
        cases hnew
        exact absurd hfires not_fires_noop

/-! ## Four calls for two faults -/

/-- Two errors, before jobs are claimed. -/
def testEnvironment : String → GoText
  | "KERNELQ_ENVIRONMENT" => GoText.ofString " Test "
  | "KERNELQ_FAULTS_ENABLED" => GoText.ofString "TRUE"
  | "KERNELQ_FAULT_POINT" => pointBeforeClaim
  | "KERNELQ_FAULT_COUNT" => GoText.ofString "2"
  | _ => []

def asciiTables : UnicodeTables := ⟨id, id⟩

def testConfig : Config where
  enabled := true
  point := pointBeforeClaim
  mode := modeError
  count := 2
  envName := GoText.ofString "Test"

theorem loadConfig_testEnvironment :
    loadConfig asciiTables testEnvironment = .ok testConfig := by
  rfl

/-- The injector of the configuration, observed. -/
def testInjector : Injector Unit :=
  .configurable (some ⟨pointBeforeClaim, modeError, 2, 0, some ()⟩)

def callOf (point : Point) : Thread Point (FaultOp.Ans (Ω := Unit)) InjectResult :=
  ⟨point, [], testInjector.inject point⟩

/-- Three calls at the point and one at another, in the order of a schedule. -/
def fourCalls (schedule : List ℕ) : Option (Calls Unit) :=
  Pool.turns (Injector.answer none) ⟨testInjector, [callOf pointBeforeClaim,
    callOf pointBeforeClaim, callOf pointBeforeExecute, callOf pointBeforeClaim]⟩ schedule

theorem reachable_fourCalls {schedule : List ℕ} {s : Calls Unit}
    (hs : fourCalls schedule = some s) : testInjector.Reachable s := by
  have hcalled : testInjector.Reachable ⟨testInjector, [callOf pointBeforeClaim,
      callOf pointBeforeClaim, callOf pointBeforeExecute, callOf pointBeforeClaim]⟩ := by
    have hstart : testInjector.Reachable ⟨testInjector, []⟩ := .start
    exact (((hstart.step (.call pointBeforeClaim trivial)).step
      (.call pointBeforeClaim trivial)).step (.call pointBeforeExecute trivial)).step
      (.call pointBeforeClaim trivial)
  exact Pool.Reachable.turns (fun _ _ _ hr => ⟨none, hr⟩) hcalled hs

/-- The second and the last call are faster than the first. -/
theorem faults_exact_fourCalls : ∃ s, fourCalls [1, 3, 2, 0, 3, 1] = some s ∧
    BudgetKept testConfig s ∧ fired s pointBeforeClaim = 2 ∧ reported s = [1, 0] ∧
    GoText.toLower asciiTables (GoText.trimSpace (testEnvironment "KERNELQ_ENVIRONMENT")) ∈
      nonProductionNames := by
  have hcomputed : ((fourCalls [1, 3, 2, 0, 3, 1]).any fun s =>
      decide (fired s pointBeforeClaim = 2 ∧ reported s = [1, 0])) = true := by
    decide +kernel
  obtain ⟨s, hs, hall⟩ := (Option.any_eq_true _ _).mp hcomputed
  obtain ⟨hfired, hreported⟩ := of_decide_eq_true hall
  have hreachable := reachable_fourCalls hs
  have hnew : newInjector testConfig [⟨some ()⟩] = .ok testInjector := rfl
  refine ⟨s, hs, faults_exact.1 testConfig _ testInjector rfl hnew s hreachable, hfired,
    hreported, ?_⟩
  have hfires : testInjector.Fires :=
    ⟨s, pointBeforeClaim, hreachable, by rw [hfired]; exact Nat.zero_lt_two⟩
  have hnames := faults_exact.2 asciiTables testEnvironment testConfig [⟨some ()⟩] testInjector
    loadConfig_testEnvironment hnew hfires
  exact hnames.resolve_left (by decide +kernel)

end KernelQ.Worker.Faults
