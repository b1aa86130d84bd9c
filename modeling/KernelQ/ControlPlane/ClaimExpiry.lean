import KernelQ.Foundation.Binary64
import KernelQ.Foundation.Leases
import KernelQ.Foundation.Service
import KernelQ.ControlPlane.IdempotencyStore

/-!
# Claims of the in-memory store, over time

The store keeps one expiry time for each key, and may forget a key once it has expired.
Clock and expiry are floats, so the end of a claim is a rounded sum. Under a clock that
does not run backwards the store grants the leases that are due by their rounded ends
(`tracks_after`); it is a claim with expiry exactly as long as the exact ends say the same
(`claims_expire_iff`).
-/

namespace KernelQ.ControlPlane

open KernelQ.Foundation

namespace InMemoryIdempotencyStore

/-! ## The store over floats -/

/-- The float that `current_time + ttl_seconds` is; `ttl_seconds` becomes one first. -/
def roundedEnd (currentTime : Float64) (ttlSeconds : ℤ) : WithTop Float64 :=
  match Float64.ofRat ttlSeconds with
  | ⊤ => ⊤
  | WithTop.some ttl => Float64.ofRat (currentTime.val + ttl.val)

theorem roundedEnd_of_infinite {currentTime : Float64} {ttlSeconds : ℤ}
    (h : Float64.ofRat ttlSeconds = ⊤) : roundedEnd currentTime ttlSeconds = ⊤ := by
  simp only [roundedEnd, h]

/-- `current_time + ttl_seconds`. -/
def floatSum (currentTime : Float64) (ttlSeconds : ℤ) : Except PyException (WithTop Float64) :=
  if Float64.ofRat ttlSeconds = ⊤ then
    .error ⟨"OverflowError", "int too large to convert to float"⟩
  else .ok (roundedEnd currentTime ttlSeconds)

/-- `_expiry_by_key`: key → expiry time, a float. -/
abbrev FloatExpiryByKey := List (String × WithTop Float64)

inductive StoreCall
  | tryClaim (key : String) (ttlSeconds : ℤ)
  | cleanupExpired
  deriving DecidableEq

inductive StoreReply
  | claimed (answer : Except PyException Bool)
  | removed (count : ℕ)
  deriving DecidableEq

/-- A call, and what the clock shows when it is made. -/
abbrev TimedStoreCall := Float64 × StoreCall

def perform (d : FloatExpiryByKey) : TimedStoreCall → FloatExpiryByKey × StoreReply
  | (t, .tryClaim key ttlSeconds) =>
      match tryClaimUntil (floatSum t ttlSeconds) t d key ttlSeconds with
      | .ok (answer, d') => (d', .claimed (.ok answer))
      | .error e => (d, .claimed (.error e))
  | (t, .cleanupExpired) =>
      let r := cleanupExpired (t : WithTop Float64) d
      (r.2, .removed r.1)

def service : Service FloatExpiryByKey TimedStoreCall StoreReply := ⟨perform⟩

/-- The clock does not run backwards. -/
def Clocked (cs : List TimedStoreCall) : Prop :=
  (cs.map Prod.fst).Pairwise (· ≤ ·)

/-- The reply to a call, after other calls on a new store. -/
def replyAfter (before : List TimedStoreCall) (c : TimedStoreCall) : StoreReply :=
  (perform (service.after [] before) c).2

/-- One of the calls is a claim that succeeds. -/
def Succeeds (cs : List TimedStoreCall) (t : Float64) (key : String) (ttlSeconds : ℤ) : Prop :=
  ((t, .tryClaim key ttlSeconds), .claimed (.ok true)) ∈ service.dialogue [] cs

/-- A claim of one of the keys. -/
def claimsIn (K : String → Bool) : TimedStoreCall → Bool
  | (_, .tryClaim key _) => K key
  | (_, .cleanupExpired) => false

/-- The claims of the keys, each with its reply. -/
def claimReplies (K : String → Bool) (cs : List TimedStoreCall) :
    List (TimedStoreCall × StoreReply) :=
  (service.dialogue [] cs).filter fun x => claimsIn K x.1

/-- The claim succeeds if and only if no earlier one of its key that did is still live. The sum
is that of the numbers. -/
def GrantedIff (pre : List TimedStoreCall) (t : Float64) (key : String) (ttlSeconds : ℤ) : Prop :=
  ∃ answer, replyAfter pre (t, .tryClaim key ttlSeconds) = .claimed (.ok answer) ∧
    (answer = true ↔ ∀ t₀ ttl₀, Succeeds pre t₀ key ttl₀ → ¬ t.val < t₀.val + ttl₀)

/-- All valid claims in the calls are granted like this. -/
def AllGranted (cs : List TimedStoreCall) : Prop :=
  ∀ pre t key ttlSeconds post, cs = pre ++ (t, .tryClaim key ttlSeconds) :: post →
    strip key ≠ "" → 0 < ttlSeconds → GrantedIff pre t key ttlSeconds

/-- What a claim with expiry promises. -/
structure ClaimsExpire (cs : List TimedStoreCall) : Prop where
  granted_iff : AllGranted cs
  successive : ∀ pre t₁ key ttl₁ mid t₂ ttl₂ post,
    cs = pre ++ (t₁, .tryClaim key ttl₁) :: mid ++ (t₂, .tryClaim key ttl₂) :: post →
    replyAfter pre (t₁, .tryClaim key ttl₁) = .claimed (.ok true) →
    replyAfter (pre ++ (t₁, .tryClaim key ttl₁) :: mid) (t₂, .tryClaim key ttl₂) =
      .claimed (.ok true) → t₁.val + ttl₁ ≤ t₂.val
  /-- A refused claim leaves the store as it is. -/
  refused : ∀ pre c post, cs = pre ++ c :: post → replyAfter pre c = .claimed (.ok false) →
    service.after [] (pre ++ [c]) = service.after [] pre
  /-- Whatever is called on other keys. -/
  independent : ∀ key cs', Clocked cs' →
    cs'.filter (claimsIn fun k => k = key) = cs.filter (claimsIn fun k => k = key) →
    claimReplies (fun k => k = key) cs' = claimReplies (fun k => k = key) cs
  /-- Wherever `cleanup_expired` is called. -/
  cleanup : ∀ cs', Clocked cs' →
    cs'.filter (claimsIn fun _ => true) = cs.filter (claimsIn fun _ => true) →
    claimReplies (fun _ => true) cs' = claimReplies (fun _ => true) cs

/-! ## Leases -/

/-- A valid claim. -/
structure Claim where
  time : Float64
  key : String
  ttlSeconds : ℤ

/-- The lease that a claim is for. -/
def Claim.lease (c : Claim) : Lease String ℚ := ⟨c.key, c.time.val, c.time.val + c.ttlSeconds⟩

/-- The lease that it gets. -/
def Claim.roundedLease (c : Claim) : Lease String (WithTop Float64) :=
  ⟨c.key, c.time, roundedEnd c.time c.ttlSeconds⟩

def claim? : TimedStoreCall → Option Claim
  | (t, .tryClaim key ttlSeconds) =>
      if strip key ≠ "" ∧ 0 < ttlSeconds then some ⟨t, key, ttlSeconds⟩ else none
  | (_, .cleanupExpired) => none

def claims (cs : List TimedStoreCall) : List Claim :=
  cs.filterMap claim?

/-- The leases that are due by exact arithmetic. -/
def due (cs : List TimedStoreCall) : List (Lease String ℚ) :=
  Lease.grantAll ((claims cs).map Claim.lease)

/-- The time `t` is on the same side of both ends of every lease that is due before, and if none
holds the key, the lifetime is a float. -/
structure OnTime (pre : List TimedStoreCall) (t : Float64) (key : String) (ttlSeconds : ℤ) :
    Prop where
  ends : ∀ t₀ ttl₀, ⟨key, t₀.val, t₀.val + (ttl₀ : ℤ)⟩ ∈ due pre →
    (roundedEnd t₀ ttl₀ ≤ t ↔ t₀.val + ttl₀ ≤ t.val)
  finite : Lease.Free (due pre) key t.val → Float64.ofRat ttlSeconds ≠ ⊤

/-- Rounding makes no difference to any valid claim. -/
def KeepsTime (cs : List TimedStoreCall) : Prop :=
  ∀ pre t key ttlSeconds post, cs = pre ++ (t, .tryClaim key ttlSeconds) :: post →
    strip key ≠ "" → 0 < ttlSeconds → OnTime pre t key ttlSeconds

/-- The leases that are asked for and can be written down. -/
def asks (cs : List TimedStoreCall) : List (Lease String (WithTop Float64)) :=
  ((claims cs).filter fun c => decide (Float64.ofRat c.ttlSeconds ≠ ⊤)).map Claim.roundedLease

/-- The claim that succeeds. -/
def success? : TimedStoreCall × StoreReply → Option Claim
  | ((t, .tryClaim key ttlSeconds), .claimed (.ok true)) => some ⟨t, key, ttlSeconds⟩
  | _ => none

def successes (cs : List TimedStoreCall) : List Claim :=
  (service.dialogue [] cs).filterMap success?

def grants (cs : List TimedStoreCall) : List (Lease String (WithTop Float64)) :=
  (successes cs).map Claim.roundedLease

/-- From `now` on, the store knows which keys are free. -/
structure Tracks (d : FloatExpiryByKey) (granted : List (Lease String (WithTop Float64)))
    (now : Float64) : Prop where
  nodup : (d.map Prod.fst).Nodup
  free_iff : ∀ key (t : Float64), now ≤ t → (Unclaimed d key ↑t ↔ Lease.Free granted key ↑t)

variable {d : FloatExpiryByKey} {granted : List (Lease String (WithTop Float64))}
  {now t : Float64} {key : String} {ttlSeconds : ℤ} {cs cs' pre post : List TimedStoreCall}

theorem Tracks.nil (now : Float64) : Tracks [] [] now where
  nodup := List.nodup_nil
  free_iff := by
    intro key t _
    constructor
    · intro _ l hl
      cases hl
    · intro _ expiry h
      cases h

theorem Tracks.mono (h : Tracks d granted now) (ht : now ≤ t) : Tracks d granted t where
  nodup := h.nodup
  free_iff key t' ht' := h.free_iff key t' (ht.trans ht')

theorem nodup_setExpiry (hd : (d.map Prod.fst).Nodup) (key : String) (expiry : WithTop Float64) :
    ((setExpiry d key expiry).map Prod.fst).Nodup := by
  refine List.nodup_cons.mpr ⟨?_, hd.sublist (List.filter_sublist.map _)⟩
  rintro hmem
  obtain ⟨e, he, hkey⟩ := List.mem_map.mp hmem
  exact of_decide_eq_true (List.mem_filter.mp he).2 hkey

/-- Where the keys differ, what is kept of a store can still be looked up. -/
theorem lookup_filter (hd : (d.map Prod.fst).Nodup) (p : String × WithTop Float64 → Bool)
    (key : String) :
    (d.filter p).lookup key = (d.lookup key).filter fun expiry => p (key, expiry) := by
  induction d with
  | nil => rfl
  | cons e d ih =>
      obtain ⟨k, expiry⟩ := e
      obtain ⟨hnot, hrest⟩ := List.nodup_cons.mp hd
      by_cases hk : key = k
      · subst hk
        -- the key has no second entry that could show behind this one
        have hnone : d.lookup key = none := by
          rw [List.lookup_eq_none_iff]
          intro e he
          rw [bne_iff_ne]
          rintro rfl
          exact hnot (List.mem_map.mpr ⟨e, he, rfl⟩)
        rw [List.lookup_cons_self, Option.filter_some]
        by_cases hp : p (key, expiry) = true
        · rw [List.filter_cons_of_pos hp, List.lookup_cons_self, if_pos hp]
        · rw [List.filter_cons_of_neg hp, ih hrest, hnone, if_neg hp]
          rfl
      · have hne : (key == k) = false := by simpa using hk
        rw [List.lookup_cons, hne, ← ih hrest, List.filter_cons]
        split
        · rw [List.lookup_cons, hne]
        · rfl

theorem perform_of_unclaimed (hkey : strip key ≠ "") (httl : 0 < ttlSeconds)
    (hfree : Unclaimed d key t) (hfinite : Float64.ofRat ttlSeconds ≠ ⊤) :
    perform d (t, .tryClaim key ttlSeconds) =
      (setExpiry d key (roundedEnd t ttlSeconds), .claimed (.ok true)) := by
  rw [perform, tryClaimUntil_of_unclaimed hkey httl hfree, floatSum, if_neg hfinite]
  rfl

theorem perform_of_overflow (hkey : strip key ≠ "") (httl : 0 < ttlSeconds)
    (hfree : Unclaimed d key t) (hinfinite : Float64.ofRat ttlSeconds = ⊤) :
    perform d (t, .tryClaim key ttlSeconds) =
      (d, .claimed (.error ⟨"OverflowError", "int too large to convert to float"⟩)) := by
  rw [perform, tryClaimUntil_of_unclaimed hkey httl hfree, floatSum, if_pos hinfinite]
  rfl

theorem perform_of_live (hkey : strip key ≠ "") (httl : 0 < ttlSeconds)
    (hlive : ¬ Unclaimed d key t) :
    perform d (t, .tryClaim key ttlSeconds) = (d, .claimed (.ok false)) := by
  obtain ⟨expiry, hlookup, hexpiry⟩ := not_unclaimed_iff.mp hlive
  rw [perform, tryClaimUntil_of_live hkey httl hlookup hexpiry]

/-- A claim that is not valid raises, and that does not depend on the store. -/
theorem perform_invalid (h : ¬ (strip key ≠ "" ∧ 0 < ttlSeconds)) :
    ∃ e, ∀ d t, perform d (t, .tryClaim key ttlSeconds) = (d, .claimed (.error e)) := by
  obtain ⟨e, he⟩ := validateClaimInputs_error h
  refine ⟨e, fun d t => ?_⟩
  rw [perform, tryClaimUntil_of_invalid he]

/-- The reply to a valid claim, if this is what has been granted. -/
def claimReply (granted : List (Lease String (WithTop Float64))) (t : Float64) (key : String)
    (ttlSeconds : ℤ) : StoreReply :=
  if Lease.Free granted key ↑t then
    if Float64.ofRat ttlSeconds = ⊤ then
      .claimed (.error ⟨"OverflowError", "int too large to convert to float"⟩)
    else .claimed (.ok true)
  else .claimed (.ok false)

/-- **A valid claim** is granted exactly if its key is free, and its end can be written
down. -/
theorem Tracks.claim (h : Tracks d granted t) (hkey : strip key ≠ "") (httl : 0 < ttlSeconds) :
    (perform d (t, .tryClaim key ttlSeconds)).2 = claimReply granted t key ttlSeconds ∧
      Tracks (perform d (t, .tryClaim key ttlSeconds)).1
        (if Float64.ofRat ttlSeconds = ⊤ then granted
          else Lease.grant granted ⟨key, t, roundedEnd t ttlSeconds⟩) t := by
  unfold claimReply
  by_cases hfree : Lease.Free granted key ↑t
  · have hunclaimed := (h.free_iff key t le_rfl).mpr hfree
    by_cases hinfinite : Float64.ofRat ttlSeconds = ⊤
    · rw [perform_of_overflow hkey httl hunclaimed hinfinite, if_pos hfree, if_pos hinfinite,
        if_pos hinfinite]
      exact ⟨rfl, h⟩
    rw [perform_of_unclaimed hkey httl hunclaimed hinfinite, if_pos hfree, if_neg hinfinite,
      if_neg hinfinite, Lease.grant_of_free hfree]
    refine ⟨rfl, nodup_setExpiry h.nodup key _, ?_⟩
    intro k t' ht'
    rw [Lease.free_append_singleton, ← h.free_iff k t' ht']
    by_cases hk : k = key
    · subst hk
      constructor
      · intro hfree'
        refine ⟨?_, fun _ => hfree' _ (lookup_setExpiry_self d k _)⟩
        exact (h.free_iff k t' ht').mpr (hfree.mono (WithTop.coe_le_coe.mpr ht'))
      · rintro ⟨-, hexpiry⟩ expiry he
        rw [lookup_setExpiry_self] at he
        cases he
        exact hexpiry rfl
    · rw [Unclaimed, lookup_setExpiry_of_ne d hk]
      exact (and_iff_left fun hkey => absurd hkey.symm hk).symm
  · have hlive : ¬ Unclaimed d key t := fun hu => hfree ((h.free_iff key t le_rfl).mp hu)
    rw [perform_of_live hkey httl hlive, if_neg hfree, Lease.grant_of_not_free hfree, ite_self]
    exact ⟨rfl, h⟩

/-- **What has expired is not missed.** -/
theorem Tracks.cleanup (h : Tracks d granted t) :
    Tracks (cleanupExpired (t : WithTop Float64) d).2 granted t where
  nodup := h.nodup.sublist (List.filter_sublist.map _)
  free_iff := by
    intro key t' ht'
    rw [← h.free_iff key t' ht', Unclaimed, Unclaimed, cleanupExpired, lookup_filter h.nodup]
    constructor
    · intro hfree expiry he
      by_cases hexpiry : expiry ≤ t
      · exact hexpiry.trans (WithTop.coe_le_coe.mpr ht')
      · refine hfree expiry ?_
        rw [he, Option.filter_some, if_pos (decide_eq_true hexpiry)]
    · intro hfree expiry he
      obtain ⟨he, -⟩ := Option.filter_eq_some_iff.mp he
      exact hfree expiry he

/-! ## Runs -/

theorem claims_append_singleton (cs : List TimedStoreCall) (c : TimedStoreCall) :
    claims (cs ++ [c]) = claims cs ++ (claim? c).toList := by
  rw [claims, List.filterMap_append]
  cases h : claim? c <;> simp [claims, h]

theorem dialogue_append_singleton (cs : List TimedStoreCall) (c : TimedStoreCall) :
    service.dialogue [] (cs ++ [c]) = service.dialogue [] cs ++ [(c, replyAfter cs c)] :=
  Service.dialogue_append service [] cs [c]

theorem after_append_singleton (cs : List TimedStoreCall) (c : TimedStoreCall) :
    service.after [] (cs ++ [c]) = (perform (service.after [] cs) c).1 :=
  Service.after_append service [] cs [c]

theorem successes_append_singleton (cs : List TimedStoreCall) (c : TimedStoreCall) :
    successes (cs ++ [c]) = successes cs ++ (success? (c, replyAfter cs c)).toList := by
  rw [successes, dialogue_append_singleton, List.filterMap_append]
  cases h : success? (c, replyAfter cs c) <;> simp [successes, h]

theorem clocked_append_singleton {c : TimedStoreCall} :
    Clocked (cs ++ [c]) ↔ Clocked cs ∧ ∀ b ∈ cs, b.1 ≤ c.1 := by
  simp [Clocked, List.pairwise_append]

theorem clocked_left (h : Clocked (pre ++ post)) : Clocked pre := by
  rw [Clocked, List.map_append, List.pairwise_append] at h
  exact h.1

theorem clocked_before {c : TimedStoreCall} (h : Clocked (pre ++ c :: post)) :
    Clocked pre ∧ ∀ b ∈ pre, b.1 ≤ c.1 := by
  rw [List.append_cons] at h
  exact clocked_append_singleton.mp (clocked_left h)

theorem asks_append_claim (hvalid : strip key ≠ "" ∧ 0 < ttlSeconds) (cs : List TimedStoreCall) :
    Lease.grantAll (asks (cs ++ [(t, .tryClaim key ttlSeconds)])) =
      if Float64.ofRat ttlSeconds = ⊤ then Lease.grantAll (asks cs)
        else Lease.grant (Lease.grantAll (asks cs)) ⟨key, t, roundedEnd t ttlSeconds⟩ := by
  rw [asks, claims_append_singleton, claim?, if_pos hvalid, Option.toList_some, List.filter_append,
    List.map_append]
  by_cases hinfinite : Float64.ofRat ttlSeconds = ⊤
  · rw [if_pos hinfinite, List.filter_cons_of_neg (by simpa using hinfinite), List.filter_nil,
      List.map_nil, List.append_nil]
    rfl
  · rw [if_neg hinfinite, List.filter_cons_of_pos (by simpa using hinfinite), List.filter_nil,
      List.map_singleton, Lease.grantAll_append_singleton]
    rfl

theorem asks_append_of_none {c : TimedStoreCall} (hc : claim? c = none)
    (cs : List TimedStoreCall) : asks (cs ++ [c]) = asks cs := by
  rw [asks, claims_append_singleton, hc, Option.toList_none, List.append_nil]
  rfl

/-- **The store grants what is due** by the rounded ends. -/
theorem tracks_after (hclock : Clocked cs) (hnow : ∀ c ∈ cs, c.1 ≤ now) :
    Tracks (service.after [] cs) (Lease.grantAll (asks cs)) now ∧
      grants cs = Lease.grantAll (asks cs) := by
  induction cs using List.reverseRecOn generalizing now with
  | nil => exact ⟨Tracks.nil now, rfl⟩
  | append_singleton cs c ih =>
      obtain ⟨hclock, hbefore⟩ := clocked_append_singleton.mp hclock
      obtain ⟨htracks, hgrants⟩ := ih hclock hbefore
      have hc : c.1 ≤ now := hnow c (by simp)
      obtain ⟨t, call⟩ := c
      rw [after_append_singleton, grants, successes_append_singleton, List.map_append, ← grants,
        hgrants, replyAfter]
      cases call with
      | cleanupExpired =>
          -- it drops only what no claim from now on would find live
          rw [asks_append_of_none rfl]
          exact ⟨htracks.cleanup.mono hc, List.append_nil _⟩
      | tryClaim key ttlSeconds =>
          by_cases hvalid : strip key ≠ "" ∧ 0 < ttlSeconds
          · obtain ⟨hreply, hafter⟩ := htracks.claim hvalid.1 hvalid.2
            rw [asks_append_claim hvalid, hreply, claimReply]
            refine ⟨hafter.mono hc, ?_⟩
            rw [Lease.grant]
            split
            · split
              · exact List.append_nil _
              · rfl
            · rw [ite_self]
              exact List.append_nil _
          · -- it raises, and asks for nothing
            obtain ⟨e, he⟩ := perform_invalid hvalid
            rw [asks_append_of_none (by rw [claim?, if_neg hvalid]), he]
            exact ⟨htracks.mono hc, List.append_nil _⟩

/-- The answer to a valid claim. -/
theorem replyAfter_claim (hclock : Clocked (pre ++ (t, .tryClaim key ttlSeconds) :: post))
    (hkey : strip key ≠ "") (httl : 0 < ttlSeconds) :
    replyAfter pre (t, .tryClaim key ttlSeconds) =
      claimReply (Lease.grantAll (asks pre)) t key ttlSeconds := by
  obtain ⟨hpre, hbefore⟩ := clocked_before hclock
  exact ((tracks_after hpre hbefore).1.claim hkey httl).1

theorem mem_successes_iff {c : Claim} :
    c ∈ successes cs ↔ Succeeds cs c.time c.key c.ttlSeconds := by
  rw [successes, List.mem_filterMap]
  constructor
  · rintro ⟨⟨⟨t, call⟩, reply⟩, hmem, hsuccess⟩
    unfold success? at hsuccess
    split at hsuccess
    · rename_i heq
      cases heq
      cases hsuccess
      exact hmem
    · cases hsuccess
  · intro hmem
    exact ⟨_, hmem, rfl⟩

/-- A claim that is answered is valid, and one that is refused changes nothing. -/
theorem perform_claimed {b : Bool}
    (h : (perform d (t, .tryClaim key ttlSeconds)).2 = .claimed (.ok b)) :
    strip key ≠ "" ∧ 0 < ttlSeconds ∧
      (b = false → (perform d (t, .tryClaim key ttlSeconds)).1 = d) := by
  by_cases hvalid : strip key ≠ "" ∧ 0 < ttlSeconds
  · refine ⟨hvalid.1, hvalid.2, ?_⟩
    rintro rfl
    by_cases hfree : Unclaimed d key t
    · by_cases hinfinite : Float64.ofRat ttlSeconds = ⊤
      · rw [perform_of_overflow hvalid.1 hvalid.2 hfree hinfinite]
      · rw [perform_of_unclaimed hvalid.1 hvalid.2 hfree hinfinite] at h
        cases h
    · rw [perform_of_live hvalid.1 hvalid.2 hfree]
  · obtain ⟨e, he⟩ := perform_invalid hvalid
    rw [he] at h
    cases h

theorem asks_filter (K : String → Bool) (cs : List TimedStoreCall) :
    asks (cs.filter (claimsIn K)) = (asks cs).filter fun l => K l.key := by
  have hclaims : claims (cs.filter (claimsIn K)) = (claims cs).filter fun c => K c.key := by
    rw [claims, claims, List.filterMap_filter, List.filter_filterMap]
    apply List.filterMap_congr
    rintro ⟨t, call⟩ _
    cases call with
    | cleanupExpired => rfl
    | tryClaim key ttlSeconds =>
        have hkey : claimsIn K (t, .tryClaim key ttlSeconds) = K key := rfl
        rw [hkey, claim?]
        by_cases hvalid : strip key ≠ "" ∧ 0 < ttlSeconds
        · rw [if_pos hvalid, Option.filter_some]
        · rw [if_neg hvalid, ite_self]
          rfl
  rw [asks, asks, hclaims, List.filter_map, List.filter_filter, List.filter_filter]
  congr 1
  apply List.filter_congr
  intro c _
  exact Bool.and_comm _ _

/-- **Other calls do not matter**: the claims of some keys have the replies they have
without any other calls. -/
theorem claimReplies_eq (hclock : Clocked cs) (K : String → Bool) :
    claimReplies K cs = service.dialogue [] (cs.filter (claimsIn K)) := by
  induction cs using List.reverseRecOn with
  | nil => rfl
  | append_singleton cs c ih =>
      have hcs := clocked_left hclock
      have hone : claimReplies K (cs ++ [c]) =
          claimReplies K cs ++ [(c, replyAfter cs c)].filter fun x => claimsIn K x.1 := by
        rw [claimReplies, dialogue_append_singleton, List.filter_append]
        rfl
      rw [hone, ih hcs, List.filter_append]
      cases hK : claimsIn K c with
      | false => simp [hK]
      | true =>
          have hfilter : [c].filter (claimsIn K) = [c] := by simp [hK]
          have hfilter' : [(c, replyAfter cs c)].filter (fun x => claimsIn K x.1) =
              [(c, replyAfter cs c)] := by simp [hK]
          rw [hfilter, hfilter', dialogue_append_singleton]
          obtain ⟨t, call⟩ := c
          cases call with
          | cleanupExpired => cases hK
          | tryClaim key ttlSeconds =>
              by_cases hvalid : strip key ≠ "" ∧ 0 < ttlSeconds
              · -- both answers are read off the leases, and those of its key are the same
                have hclock' :
                    Clocked (cs.filter (claimsIn K) ++ [(t, .tryClaim key ttlSeconds)]) := by
                  refine List.Pairwise.sublist (List.Sublist.map _ ?_) hclock
                  exact List.Sublist.append_right List.filter_sublist _
                rw [replyAfter_claim hclock hvalid.1 hvalid.2,
                  replyAfter_claim hclock' hvalid.1 hvalid.2, asks_filter, Lease.grantAll_filter,
                  claimReply, claimReply]
                simp only [Lease.free_filter (show K key = true from hK)]
              · obtain ⟨e, he⟩ := perform_invalid hvalid
                rw [replyAfter, replyAfter, he, he]

/-! ## The exact ends -/

theorem time_of_mem_successes {c : Claim} (hc : c ∈ successes cs) (hnow : ∀ b ∈ cs, b.1 ≤ t) :
    c.time ≤ t := by
  have hsucceeds : Succeeds cs c.time c.key c.ttlSeconds := mem_successes_iff.mp hc
  have hcall := List.mem_map_of_mem (f := Prod.fst) hsucceeds
  rw [Service.dialogue_map_fst] at hcall
  exact hnow _ hcall

theorem AllGranted.left (h : AllGranted (pre ++ post)) : AllGranted pre := by
  rintro pre' t key ttlSeconds post' rfl
  exact h pre' t key ttlSeconds (post' ++ post) (List.append_assoc _ _ _)

theorem free_due_iff (hdue : (successes cs).map Claim.lease = due cs) :
    Lease.Free (due cs) key t.val ↔
      ∀ t₀ ttl₀, Succeeds cs t₀ key ttl₀ → ¬ t.val < t₀.val + (ttl₀ : ℤ) := by
  rw [← hdue]
  constructor
  · intro hfree t₀ ttl₀ hsucceeds
    have hmem : (⟨t₀, key, ttl₀⟩ : Claim) ∈ successes cs := mem_successes_iff.mpr hsucceeds
    exact not_lt.mpr (hfree _ (List.mem_map_of_mem hmem) rfl)
  · intro hexpired l hl hkey
    obtain ⟨c, hc, rfl⟩ := List.mem_map.mp hl
    obtain rfl : c.key = key := hkey
    exact not_lt.mp (hexpired c.time c.ttlSeconds (mem_successes_iff.mp hc))

/-- **As long as the claims are granted as they should be**, the store grants what is
due. -/
theorem AllGranted.due_eq (h : AllGranted cs) : (successes cs).map Claim.lease = due cs := by
  induction cs using List.reverseRecOn with
  | nil => rfl
  | append_singleton cs c ih =>
      have hdue := ih h.left
      obtain ⟨t, call⟩ := c
      rw [successes_append_singleton, List.map_append, hdue, due, due, claims_append_singleton,
        List.map_append, ← due, replyAfter]
      cases call with
      | cleanupExpired =>
          show due cs ++ [] = Lease.grantAll (_ ++ [])
          rw [List.append_nil, List.append_nil]
          rfl
      | tryClaim key ttlSeconds =>
          by_cases hvalid : strip key ≠ "" ∧ 0 < ttlSeconds
          · obtain ⟨answer, hanswer, hiff⟩ := h cs t key ttlSeconds [] rfl hvalid.1 hvalid.2
            rw [replyAfter] at hanswer
            rw [hanswer, claim?, if_pos hvalid, Option.toList_some, List.map_singleton,
              Lease.grantAll_append_singleton]
            change _ = Lease.grant (due cs) _
            rw [← free_due_iff hdue] at hiff
            cases answer with
            | true => exact (Lease.grant_of_free (hiff.mp rfl)).symm
            | false =>
                have hheld : ¬ Lease.Free (due cs) key t.val := fun hfree => by
                  cases hiff.mpr hfree
                rw [Lease.grant_of_not_free hheld]
                exact List.append_nil _
          · obtain ⟨e, he⟩ := perform_invalid hvalid
            rw [he, claim?, if_neg hvalid]
            show due cs ++ [] = Lease.grantAll (_ ++ [])
            rw [List.append_nil, List.append_nil]
            rfl

/-- The claim is over at `t`, by both of its ends. -/
def Claim.Over (c : Claim) (t : Float64) : Prop :=
  roundedEnd c.time c.ttlSeconds ≤ t ∧ c.time.val + c.ttlSeconds ≤ t.val

theorem Claim.Over.mono {c : Claim} {t t' : Float64} (h : c.Over t) (ht : t ≤ t') : c.Over t' :=
  ⟨h.1.trans (WithTop.coe_le_coe.mpr ht), h.2.trans ht⟩

/-- The claims of one key that succeed follow each other. -/
theorem successes_apart (hclock : Clocked cs) (hnow : ∀ c ∈ cs, c.1 ≤ t)
    (hdue : (successes cs).map Claim.lease = due cs) {a b : Claim} (ha : a ∈ successes cs)
    (hb : b ∈ successes cs) (hne : a ≠ b) (hkey : a.key = b.key) :
    a.Over b.time ∨ b.Over a.time := by
  have hexact := Lease.grantAll_pairwise ((claims cs).map Claim.lease)
  rw [← due, ← hdue, List.pairwise_map] at hexact
  have hrounded := Lease.grantAll_pairwise (asks cs)
  rw [← (tracks_after hclock hnow).2, grants, List.pairwise_map] at hrounded
  have hboth : (successes cs).Pairwise fun a b =>
      a.key = b.key → a.Over b.time ∨ b.Over a.time :=
    (hrounded.and hexact).imp fun h hkey => .inl ⟨h.1 hkey, h.2 hkey⟩
  have hsymm : Std.Symm fun a b : Claim => a.key = b.key → a.Over b.time ∨ b.Over a.time :=
    ⟨fun a b h hkey => (h hkey.symm).symm⟩
  exact hboth.forall ha hb hne hkey

/-- Where a key is held by the rounded ends and by the exact ones, one claim holds it, and all
others are over. -/
theorem over_or_holds (hclock : Clocked cs) (hnow : ∀ c ∈ cs, c.1 ≤ t)
    (hdue : (successes cs).map Claim.lease = due cs)
    (hrounded : ¬ Lease.Free (grants cs) key ↑t) (hexact : ¬ Lease.Free (due cs) key t.val)
    {c : Claim} (hc : c ∈ successes cs) (hkey : c.key = key) :
    c.Over t ∨ ¬ roundedEnd c.time c.ttlSeconds ≤ t ∧ ¬ c.time.val + c.ttlSeconds ≤ t.val := by
  obtain ⟨a, ha, hakey, haend⟩ : ∃ a ∈ successes cs, a.key = key ∧
      ¬ roundedEnd a.time a.ttlSeconds ≤ t := by
    by_contra hnone
    push Not at hnone
    refine hrounded fun l hl hkey => ?_
    obtain ⟨a, ha, rfl⟩ := List.mem_map.mp hl
    exact hnone a ha hkey
  obtain ⟨b, hb, hbkey, hbend⟩ : ∃ b ∈ successes cs, b.key = key ∧
      ¬ b.time.val + b.ttlSeconds ≤ t.val := by
    by_contra hnone
    push Not at hnone
    refine hexact fun l hl hkey => ?_
    rw [← hdue] at hl
    obtain ⟨b, hb, rfl⟩ := List.mem_map.mp hl
    exact hnone b hb hkey
  have htime : ∀ c ∈ successes cs, c.time ≤ t := fun c hc => time_of_mem_successes hc hnow
  obtain rfl : a = b := by
    by_contra hne
    rcases successes_apart hclock hnow hdue ha hb hne (hakey.trans hbkey.symm) with hover | hover
    · exact haend (hover.mono (htime b hb)).1
    · exact hbend (hover.mono (htime a ha)).2
  rcases eq_or_ne c a with rfl | hne
  · exact .inr ⟨haend, hbend⟩
  · rcases successes_apart hclock hnow hdue hc ha hne (hkey.trans hakey.symm) with hover | hover
    · exact .inl (hover.mono (htime a ha))
    · exact absurd (hover.mono (htime c hc)).1 haend

/-- **One claim**: it is granted as it should be exactly if rounding makes no difference to
it. -/
theorem grantedIff_iff (hclock : Clocked (pre ++ (t, .tryClaim key ttlSeconds) :: post))
    (hdue : (successes pre).map Claim.lease = due pre) (hkey : strip key ≠ "")
    (httl : 0 < ttlSeconds) :
    GrantedIff pre t key ttlSeconds ↔ OnTime pre t key ttlSeconds := by
  obtain ⟨hpre, hbefore⟩ := clocked_before hclock
  have hgrants := (tracks_after hpre hbefore).2
  rw [GrantedIff, replyAfter_claim hclock hkey httl, claimReply, ← hgrants, ← free_due_iff hdue]
  constructor
  · rintro ⟨answer, hanswer, hiff⟩
    have hsame : Lease.Free (grants pre) key ↑t ↔ Lease.Free (due pre) key t.val := by
      by_cases hfree : Lease.Free (grants pre) key ↑t
      · rw [if_pos hfree] at hanswer
        split at hanswer
        · cases hanswer
        · cases hanswer
          exact iff_of_true hfree (hiff.mp rfl)
      · rw [if_neg hfree] at hanswer
        cases hanswer
        exact iff_of_false hfree fun hdue => by cases hiff.mpr hdue
    constructor
    case finite =>
      intro hfree hinfinite
      rw [if_pos (hsame.mpr hfree), if_pos hinfinite] at hanswer
      cases hanswer
    case ends =>
      intro t₀ ttl₀ hmem
      rw [← hdue] at hmem
      obtain ⟨⟨t₁, k, ttl₁⟩, hc, hlease⟩ := List.mem_map.mp hmem
      simp only [Claim.lease, Lease.mk.injEq] at hlease
      obtain ⟨rfl, htime, hend⟩ := hlease
      obtain rfl := Float64.val_injective htime
      obtain rfl : ttl₁ = ttl₀ := by exact_mod_cast add_left_cancel hend
      by_cases hfree : Lease.Free (grants pre) k ↑t
      · refine iff_of_true (hfree _ (List.mem_map_of_mem hc) rfl) ?_
        exact hsame.mp hfree _ (hdue ▸ List.mem_map_of_mem hc) rfl
      · have hheld : ¬ Lease.Free (due pre) k t.val := fun hdue => hfree (hsame.mpr hdue)
        rcases over_or_holds hpre hbefore hdue hfree hheld hc rfl with hover | ⟨hrounded, hexact⟩
        · exact iff_of_true hover.1 hover.2
        · exact iff_of_false hrounded hexact
  · rintro ⟨hends, hfinite⟩
    have hsame : Lease.Free (grants pre) key ↑t ↔ Lease.Free (due pre) key t.val := by
      rw [← hdue, grants, Lease.Free, Lease.Free, List.forall_mem_map, List.forall_mem_map]
      refine forall₂_congr fun c hc => imp_congr_right fun hkey => ?_
      obtain rfl : c.key = key := hkey
      exact hends c.time c.ttlSeconds (hdue ▸ List.mem_map_of_mem hc)
    by_cases hfree : Lease.Free (grants pre) key ↑t
    · refine ⟨true, ?_, iff_of_true rfl (hsame.mp hfree)⟩
      rw [if_pos hfree, if_neg (hfinite (hsame.mp hfree))]
    · refine ⟨false, if_neg hfree, iff_of_false Bool.false_ne_true fun hdue => ?_⟩
      exact hfree (hsame.mpr hdue)

/-- **Rounding makes no difference to any claim** exactly if all are granted as they should
be. -/
theorem allGranted_iff (hclock : Clocked cs) : AllGranted cs ↔ KeepsTime cs := by
  constructor
  · rintro h pre t key ttlSeconds post rfl hkey httl
    have hdue := (AllGranted.left h).due_eq
    exact (grantedIff_iff hclock hdue hkey httl).mp (h pre t key ttlSeconds post rfl hkey httl)
  · intro h pre
    -- by induction on the calls before, which the claim's own leases are made of
    induction hn : pre.length using Nat.strongRecOn generalizing pre with
    | ind n ih =>
        rintro t key ttlSeconds post rfl hkey httl
        have hpre : AllGranted pre := by
          rintro pre' t' key' ttl' post' rfl hkey' httl'
          refine ih pre'.length ?_ pre' rfl t' key' ttl' _ (List.append_assoc _ _ _) hkey' httl'
          rw [← hn, List.length_append, List.length_cons]
          omega
        exact (grantedIff_iff hclock hpre.due_eq hkey httl).mpr
          (h pre t key ttlSeconds post rfl hkey httl)

/-- **When the in-memory store is a claim with expiry**, under a clock that does not run
backwards: exactly if rounding makes no difference to any claim. -/
theorem claims_expire_iff (hclock : Clocked cs) : ClaimsExpire cs ↔ KeepsTime cs := by
  rw [← allGranted_iff hclock]
  constructor
  · exact ClaimsExpire.granted_iff
  intro hgranted
  have hcongr : ∀ K cs', Clocked cs' → cs'.filter (claimsIn K) = cs.filter (claimsIn K) →
      claimReplies K cs' = claimReplies K cs := by
    intro K cs' hclock' hsame
    rw [claimReplies_eq hclock', claimReplies_eq hclock, hsame]
  constructor
  case granted_iff => exact hgranted
  case successive =>
    intro pre t₁ key ttl₁ mid t₂ ttl₂ post hcs hfirst hsecond
    obtain ⟨hkey, httl, -⟩ := perform_claimed hsecond
    obtain ⟨answer, hanswer, hiff⟩ := hgranted _ _ _ _ _ hcs hkey httl
    rw [hsecond] at hanswer
    cases hanswer
    -- the first claim is one of the successes that the second has to wait for
    refine not_lt.mp (hiff.mp rfl t₁ ttl₁ ?_)
    rw [Succeeds, Service.dialogue_append, List.mem_append]
    right
    rw [← hfirst]
    exact List.mem_cons_self
  case refused =>
    rintro pre ⟨t, call⟩ post rfl hrefused
    rw [after_append_singleton]
    cases call with
    | cleanupExpired => cases hrefused
    | tryClaim key ttlSeconds => exact (perform_claimed hrefused).2.2 rfl
  case independent =>
    intro key cs' hclock' hsame
    exact hcongr _ cs' hclock' hsame
  case cleanup =>
    intro cs' hclock' hsame
    exact hcongr _ cs' hclock' hsame

/-- **Exact sums** are enough. -/
theorem keepsTime_of_exact (hexact : ∀ t key ttlSeconds, (t, .tryClaim key ttlSeconds) ∈ cs →
    ∃ e : Float64, roundedEnd t ttlSeconds = e ∧ e.val = t.val + ttlSeconds) : KeepsTime cs := by
  rintro pre t key ttlSeconds post rfl hkey httl
  constructor
  case ends =>
    intro t₀ ttl₀ hmem
    obtain ⟨⟨t₁, k, ttl₁⟩, hclaim, hlease⟩ := List.mem_map.mp (Lease.mem_of_mem_grantAll hmem)
    simp only [Claim.lease, Lease.mk.injEq] at hlease
    obtain ⟨rfl, htime, hend⟩ := hlease
    obtain rfl := Float64.val_injective htime
    obtain rfl : ttl₁ = ttl₀ := by exact_mod_cast add_left_cancel hend
    obtain ⟨⟨t₂, call⟩, hcall, hsome⟩ := List.mem_filterMap.mp hclaim
    cases call with
    | cleanupExpired => cases hsome
    | tryClaim k' ttl' =>
        rw [claim?, Option.ite_none_right_eq_some] at hsome
        obtain ⟨-, hsome⟩ := hsome
        cases hsome
        obtain ⟨e, hrounded, hval⟩ := hexact _ _ _ (List.mem_append_left _ hcall)
        have hends : (e : WithTop Float64) ≤ t ↔ e.val ≤ t.val := WithTop.coe_le_coe
        rwa [← hrounded, hval] at hends
  case finite =>
    intro _ hinfinite
    obtain ⟨e, hrounded, -⟩ := hexact t key ttlSeconds (by simp)
    rw [roundedEnd_of_infinite hinfinite] at hrounded
    exact WithTop.top_ne_coe hrounded

/-! ## Two clocks -/

/-- A claim, one while it is live, and one just as it expires. -/
def claimedAgain : List TimedStoreCall :=
  [(.ofNat 1000 (by decide), .tryClaim "key" 10), (.ofNat 1005 (by decide), .tryClaim "key" 10),
    (.ofNat 1010 (by decide), .cleanupExpired), (.ofNat 1010 (by decide), .tryClaim "key" 10)]

theorem claims_expire_claimedAgain : ClaimsExpire claimedAgain := by
  refine (claims_expire_iff (by unfold Clocked; decide +kernel)).mpr (keepsTime_of_exact ?_)
  intro t key ttlSeconds hmem
  simp only [claimedAgain, List.mem_cons, Prod.mk.injEq, StoreCall.tryClaim.injEq, reduceCtorEq,
    and_false, false_or, List.not_mem_nil, or_false] at hmem
  obtain ⟨rfl, -, rfl⟩ | ⟨rfl, -, rfl⟩ | ⟨rfl, -, rfl⟩ := hmem
  · exact ⟨.ofNat 1010 (by decide), by decide +kernel, by decide +kernel⟩
  · exact ⟨.ofNat 1015 (by decide), by decide +kernel, by decide +kernel⟩
  · exact ⟨.ofNat 1020 (by decide), by decide +kernel, by decide +kernel⟩

/-- Just before 2 ^ 31 seconds, a quarter of a microsecond is the unit in the last place. -/
def beforeCarry : Float64 := ⟨9007199254740989 / 4194304, by decide +kernel, by decide +kernel⟩

/-- Less than a second later. -/
def behindCarry : Float64 := ⟨9007199258935292 / 4194304, by decide +kernel, by decide +kernel⟩

/-- A claim for one second, and one before it is over. -/
def claimedEarly : List TimedStoreCall :=
  [(beforeCarry, .tryClaim "key" 1), (behindCarry, .tryClaim "key" 1)]

/-- The end of the first claim is rounded down, and the second succeeds. -/
theorem claimed_early : Clocked claimedEarly ∧ behindCarry.val < beforeCarry.val + 1 ∧
    ¬ ClaimsExpire claimedEarly := by
  have hlt : behindCarry.val < beforeCarry.val + 1 := by decide +kernel
  refine ⟨by unfold Clocked; decide +kernel, hlt, ?_⟩
  intro h
  have hend := h.successive [] beforeCarry "key" 1 [] behindCarry 1 [] rfl (by decide +kernel)
    (by decide +kernel)
  exact absurd hend (not_le.mpr (by exact_mod_cast hlt))

end InMemoryIdempotencyStore

end KernelQ.ControlPlane
