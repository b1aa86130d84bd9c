import KernelQ.ControlPlane.ClaimExpiry

/-!
# Claims that do not expire

A store whose keys never expire is the set of its claimed keys, `claimedKeys`. As long as no
granted claim is over, the in-memory store is no more than that, whatever its clock shows
(`dialogue_of_unexpired`).
-/

namespace KernelQ.ControlPlane

open KernelQ.Foundation

namespace InMemoryIdempotencyStore

/-- The set of claimed keys, under the calls of the store. It has nothing to clean up. -/
def performKeys (keys : List String) : TimedStoreCall → List String × StoreReply
  | (_, .tryClaim key ttlSeconds) =>
      match claimedKeys.tryClaim keys key ttlSeconds with
      | .ok (answer, keys') => (keys', .claimed (.ok answer))
      | .error e => (keys, .claimed (.error e))
  | (_, .cleanupExpired) => (keys, .removed 0)

def keysService : Service (List String) TimedStoreCall StoreReply := ⟨performKeys⟩

/-- Whenever the store is called, no claim that it has granted is over; and all lifetimes are
floats. -/
structure Unexpired (cs : List TimedStoreCall) : Prop where
  live : ∀ pre x post, cs = pre ++ x :: post →
    ∀ c ∈ successes pre, ¬ roundedEnd c.time c.ttlSeconds ≤ x.1
  finite : ∀ c ∈ claims cs, Float64.ofRat c.ttlSeconds ≠ ⊤

/-- `keys` are the keys of the store. -/
def KeysOf (d : FloatExpiryByKey) (keys : List String) : Prop :=
  ∀ k, k ∈ keys ↔ ∃ expiry, d.lookup k = some expiry

variable {d : FloatExpiryByKey} {keys : List String} {x : TimedStoreCall} {key : String}
  {ttlSeconds : ℤ} {t : Float64} {cs : List TimedStoreCall} {e : String × WithTop Float64}

theorem Unexpired.left (h : Unexpired (cs ++ [x])) : Unexpired cs where
  live := by
    rintro pre y post rfl
    exact h.live pre y (post ++ [x]) (List.append_assoc _ _ _)
  finite c hc := h.finite c (by
    rw [claims_append_singleton]
    exact List.mem_append_left _ hc)

theorem mem_of_lookup {k : String} {expiry : WithTop Float64} (h : d.lookup k = some expiry) :
    (k, expiry) ∈ d := by
  obtain ⟨pre, post, rfl, -⟩ := List.lookup_eq_some_iff.mp h
  exact List.mem_append_right _ List.mem_cons_self

/-! ## What the store holds -/

/-- A call writes no entry but that of the claim it grants. -/
theorem mem_perform (he : e ∈ (perform d x).1) :
    e ∈ d ∨ ∃ c, success? (x, (perform d x).2) = some c ∧
      e = (c.key, roundedEnd c.time c.ttlSeconds) := by
  obtain ⟨t, call⟩ := x
  cases call with
  | cleanupExpired => exact .inl (List.mem_of_mem_filter he)
  | tryClaim key ttlSeconds =>
      by_cases hvalid : strip key ≠ "" ∧ 0 < ttlSeconds
      · by_cases hfree : Unclaimed d key ↑t
        · by_cases hfinite : Float64.ofRat ttlSeconds = ⊤
          · rw [perform_of_overflow hvalid.1 hvalid.2 hfree hfinite] at he
            exact .inl he
          · rw [perform_of_unclaimed hvalid.1 hvalid.2 hfree hfinite] at he ⊢
            rcases List.mem_cons.mp he with rfl | he
            · exact .inr ⟨⟨t, key, ttlSeconds⟩, rfl, rfl⟩
            · exact .inl (List.mem_of_mem_filter he)
        · rw [perform_of_live hvalid.1 hvalid.2 hfree] at he
          exact .inl he
      · obtain ⟨error, hraises⟩ := perform_invalid hvalid
        rw [hraises] at he
        exact .inl he

/-- **Every entry** is the end of a claim that was granted. -/
theorem mem_after (he : e ∈ service.after [] cs) :
    ∃ c ∈ successes cs, e = (c.key, roundedEnd c.time c.ttlSeconds) := by
  induction cs using List.reverseRecOn with
  | nil => cases he
  | append_singleton cs x ih =>
      rw [after_append_singleton] at he
      rw [successes_append_singleton]
      rcases mem_perform he with he | ⟨c, hc, rfl⟩
      · obtain ⟨c, hc, rfl⟩ := ih he
        exact ⟨c, List.mem_append_left _ hc, rfl⟩
      · refine ⟨c, List.mem_append_right _ ?_, rfl⟩
        rw [replyAfter, hc]
        exact List.mem_singleton_self c

/-! ## One call, and all of them -/

/-- **While all entries are live**, the store answers by presence alone. -/
theorem perform_of_all_live (hkeys : KeysOf d keys)
    (hlive : ∀ e ∈ d, ¬ e.2 ≤ (x.1 : WithTop Float64))
    (hfinite : ∀ c ∈ claim? x, Float64.ofRat c.ttlSeconds ≠ ⊤) :
    (perform d x).2 = (performKeys keys x).2 ∧
      KeysOf (perform d x).1 (performKeys keys x).1 := by
  obtain ⟨t, call⟩ := x
  cases call with
  | cleanupExpired =>
      have hkept : (d.filter fun e => decide (¬ e.2 ≤ (t : WithTop Float64))) = d :=
        List.filter_eq_self.mpr fun e he => decide_eq_true (hlive e he)
      have hnone : (d.filter fun e => decide (e.2 ≤ (t : WithTop Float64))) = [] :=
        List.filter_eq_nil_iff.mpr fun e he h => hlive e he (of_decide_eq_true h)
      constructor
      · show StoreReply.removed (d.filter _).length = .removed 0
        rw [hnone]
        rfl
      · show KeysOf (d.filter _) keys
        rwa [hkept]
  | tryClaim key ttlSeconds =>
      by_cases hvalid : strip key ≠ "" ∧ 0 < ttlSeconds
      · have hfloat : Float64.ofRat ttlSeconds ≠ ⊤ :=
          hfinite ⟨t, key, ttlSeconds⟩ (by rw [claim?, if_pos hvalid]; rfl)
        rw [performKeys, claimedKeys_tryClaim hvalid.1 hvalid.2]
        by_cases hmem : key ∈ keys
        · obtain ⟨expiry, hlookup⟩ := (hkeys key).mp hmem
          have hheld : ¬ Unclaimed d key ↑t := fun hfree =>
            hlive _ (mem_of_lookup hlookup) (hfree expiry hlookup)
          rw [perform_of_live hvalid.1 hvalid.2 hheld, if_pos hmem]
          exact ⟨rfl, hkeys⟩
        · have hfree : Unclaimed d key ↑t := fun expiry hlookup =>
            absurd ((hkeys key).mpr ⟨expiry, hlookup⟩) hmem
          rw [perform_of_unclaimed hvalid.1 hvalid.2 hfree hfloat, if_neg hmem]
          refine ⟨rfl, fun k => ?_⟩
          by_cases hk : k = key
          · subst hk
            simp [lookup_setExpiry_self]
          · rw [lookup_setExpiry_of_ne d hk, ← hkeys k]
            simp [hk]
      · -- both raise before they look at what they hold
        obtain ⟨error, hraises⟩ := validateClaimInputs_error hvalid
        have hkeysRaise : claimedKeys.tryClaim keys key ttlSeconds = .error error := by
          simp only [claimedKeys, hraises]
          rfl
        rw [perform, tryClaimUntil_of_invalid hraises, performKeys, hkeysRaise]
        exact ⟨rfl, hkeys⟩

/-- **As long as nothing expires**, the in-memory store answers every sequence of calls as the
set of its claimed keys does. -/
theorem dialogue_of_unexpired (h : Unexpired cs) :
    service.dialogue [] cs = keysService.dialogue [] cs := by
  suffices hboth : service.dialogue [] cs = keysService.dialogue [] cs ∧
      KeysOf (service.after [] cs) (keysService.after [] cs) from hboth.1
  induction cs using List.reverseRecOn with
  | nil => exact ⟨rfl, by simp [KeysOf]⟩
  | append_singleton cs x ih =>
      obtain ⟨hdialogue, hkeys⟩ := ih h.left
      have hlive : ∀ e ∈ service.after [] cs, ¬ e.2 ≤ (x.1 : WithTop Float64) := by
        intro e he
        obtain ⟨c, hc, rfl⟩ := mem_after he
        exact h.live cs x [] rfl c hc
      have hfinite : ∀ c ∈ claim? x, Float64.ofRat c.ttlSeconds ≠ ⊤ := by
        intro c hc
        refine h.finite c ?_
        rw [claims_append_singleton]
        exact List.mem_append_right _ (Option.mem_toList.mpr hc)
      obtain ⟨hreply, hafter⟩ := perform_of_all_live hkeys hlive hfinite
      rw [Service.dialogue_append, Service.dialogue_append, Service.after_append,
        Service.after_append, hdialogue]
      refine ⟨congrArg (fun reply => keysService.dialogue [] cs ++ [(x, reply)]) hreply, ?_⟩
      exact hafter

/-- Two keys are claimed, one of them twice, and a cleanup comes in between. -/
def lasting : List TimedStoreCall :=
  [(.ofNat 2000 (by decide), .tryClaim "key" 10), (.ofNat 2005 (by decide), .tryClaim "key" 10),
    (.ofNat 2006 (by decide), .cleanupExpired), (.ofNat 2007 (by decide), .tryClaim "other" 5)]

theorem dialogue_of_unexpired_lasting :
    service.dialogue [] lasting = keysService.dialogue [] lasting ∧
      (service.dialogue [] lasting).map Prod.snd =
        [.claimed (.ok true), .claimed (.ok false), .removed 0, .claimed (.ok true)] := by
  have h : Unexpired lasting := by
    constructor
    case live =>
      have hall : ∀ n < 4, ∀ x ∈ lasting[n]?, ∀ c ∈ successes (lasting.take n),
          ¬ roundedEnd c.time c.ttlSeconds ≤ x.1 := by
        decide +kernel
      intro pre x post hcs
      have hlength := congrArg List.length hcs
      rw [List.length_append] at hlength
      have hx : lasting[pre.length]? = some x := by rw [hcs]; simp
      have hpre : lasting.take pre.length = pre := by rw [hcs]; simp
      have hlt : pre.length < 4 := by
        change 4 = _ at hlength
        simp at hlength
        omega
      have hn := hall pre.length hlt x hx
      rwa [hpre] at hn
    case finite =>
      decide +kernel
  exact ⟨dialogue_of_unexpired h, by decide +kernel⟩

end InMemoryIdempotencyStore

end KernelQ.ControlPlane
