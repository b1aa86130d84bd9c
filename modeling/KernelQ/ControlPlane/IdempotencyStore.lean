import Mathlib.Data.Rat.Defs
import Mathlib.Algebra.Order.Ring.Rat
import KernelQ.ControlPlane.IdempotencyKeys

/-!
# The idempotency store

`idempotency_store.py`. `IdempotencyStore σ` is the interface; its in-memory
implementation keeps an expiry time for each key, and reads the clock at each
call. What a time is and how the expiry is summed up are parameters: `tryClaim`
has exact numbers, and `ClaimExpiry` the floats of Python. Where no key expires,
all that is left of the store is the set of claimed keys, `claimedKeys` (see
`UnexpiredClaims`).
-/

namespace KernelQ.ControlPlane

/-- A store with states `σ`: `try_claim(key, ttl_seconds)`. -/
structure IdempotencyStore (σ : Type) where
  tryClaim : σ → String → ℤ → Except PyException (Bool × σ)

def validateClaimInputs (key : String) (ttlSeconds : ℤ) : Except PyException Unit :=
  if strip key = "" then .error (valueError "key must be non-empty")
  else if ttlSeconds ≤ 0 then .error (valueError "ttl_seconds must be a positive integer")
  else .ok ()

/-- `_expiry_by_key`: key → expiry time, in seconds. -/
abbrev ExpiryByKey := List (String × ℚ)

namespace InMemoryIdempotencyStore

section

variable {τ : Type} [LE τ] [DecidableLE τ]

def setExpiry (d : List (String × τ)) (key : String) (expiry : τ) : List (String × τ) :=
  (key, expiry) :: d.filter fun e => decide (e.1 ≠ key)

/-- `try_claim`, where `sum` is `current_time + ttl_seconds`. -/
def tryClaimUntil (sum : Except PyException τ) (currentTime : τ) (d : List (String × τ))
    (key : String) (ttlSeconds : ℤ) : Except PyException (Bool × List (String × τ)) := do
  validateClaimInputs key ttlSeconds
  match d.lookup key with
  | none =>
      let expiry ← sum
      return (true, setExpiry d key expiry)
  | some expiry =>
      if expiry ≤ currentTime then
        let expiry ← sum
        return (true, setExpiry d key expiry)
      else return (false, d)

def cleanupExpired (currentTime : τ) (d : List (String × τ)) : ℕ × List (String × τ) :=
  ((d.filter fun e => decide (e.2 ≤ currentTime)).length,
    d.filter fun e => decide (¬ e.2 ≤ currentTime))

end

/-- `try_claim` over exact numbers. -/
def tryClaim (currentTime : ℚ) (d : ExpiryByKey) (key : String) (ttlSeconds : ℤ) :
    Except PyException (Bool × ExpiryByKey) :=
  tryClaimUntil (.ok (currentTime + ttlSeconds)) currentTime d key ttlSeconds

/-- The store as it answers at one moment. -/
def store (currentTime : ℚ) : IdempotencyStore ExpiryByKey := ⟨tryClaim currentTime⟩

end InMemoryIdempotencyStore

/-- A store whose keys never expire: the list of claimed keys. -/
def claimedKeys : IdempotencyStore (List String) where
  tryClaim keys key ttlSeconds := do
    validateClaimInputs key ttlSeconds
    if key ∈ keys then return (false, keys) else return (true, key :: keys)

/-! ## The in-memory store -/

open InMemoryIdempotencyStore

section

variable {τ : Type}

/-- No live claim on the key. -/
def Unclaimed [LE τ] (d : List (String × τ)) (key : String) (currentTime : τ) : Prop :=
  ∀ expiry, d.lookup key = some expiry → expiry ≤ currentTime

theorem validateClaimInputs_ok {key : String} {ttlSeconds : ℤ} (hkey : strip key ≠ "")
    (httl : 0 < ttlSeconds) : validateClaimInputs key ttlSeconds = .ok () := by
  rw [validateClaimInputs, if_neg hkey, if_neg (not_le.mpr httl)]

theorem lookup_setExpiry_self (d : List (String × τ)) (key : String) (expiry : τ) :
    (setExpiry d key expiry).lookup key = some expiry := by
  simp [setExpiry]

theorem lookup_setExpiry_of_ne (d : List (String × τ)) {key k : String} (hk : k ≠ key)
    (expiry : τ) : (setExpiry d key expiry).lookup k = d.lookup k := by
  have hfilter : ∀ d : List (String × τ),
      (d.filter fun e => decide (e.1 ≠ key)).lookup k = d.lookup k := by
    intro d
    induction d with
    | nil => rfl
    | cons e d ih =>
        by_cases he : e.1 = key
        · have hne : (k == e.1) = false := by simpa [he] using hk
          rw [List.filter_cons_of_neg (by simpa using he), ih, List.lookup_cons, hne]
        · rw [List.filter_cons_of_pos (by simpa using he), List.lookup_cons, List.lookup_cons, ih]
  have hne : (k == key) = false := by simpa using hk
  rw [setExpiry, List.lookup_cons, hne, hfilter]

variable [LinearOrder τ] {sum : Except PyException τ} {d : List (String × τ)} {key : String}
  {ttlSeconds : ℤ} {now expiry : τ}

theorem not_unclaimed_iff :
    ¬ Unclaimed d key now ↔ ∃ expiry, d.lookup key = some expiry ∧ now < expiry := by
  unfold Unclaimed
  push Not
  rfl

/-- Inputs that are not valid raise, whatever the store and the clock. -/
theorem validateClaimInputs_error (h : ¬ (strip key ≠ "" ∧ 0 < ttlSeconds)) :
    ∃ e, validateClaimInputs key ttlSeconds = .error e := by
  unfold validateClaimInputs
  split
  · exact ⟨_, rfl⟩
  split
  · exact ⟨_, rfl⟩
  · rename_i hkey httl
    exact absurd ⟨hkey, not_le.mp httl⟩ h

theorem tryClaimUntil_of_invalid {e : PyException}
    (h : validateClaimInputs key ttlSeconds = .error e) :
    tryClaimUntil sum now d key ttlSeconds = .error e := by
  rw [tryClaimUntil, h]
  rfl

theorem tryClaimUntil_of_unclaimed (hkey : strip key ≠ "") (httl : 0 < ttlSeconds)
    (h : Unclaimed d key now) : tryClaimUntil sum now d key ttlSeconds =
      sum.map fun expiry => (true, setExpiry d key expiry) := by
  rw [tryClaimUntil, validateClaimInputs_ok hkey httl]
  cases hlookup : d.lookup key with
  | none => cases sum <;> rfl
  | some expiry =>
      show (if expiry ≤ now then _ else _) = _
      rw [if_pos (h expiry hlookup)]
      cases sum <;> rfl

theorem tryClaimUntil_of_live (hkey : strip key ≠ "") (httl : 0 < ttlSeconds)
    (hlookup : d.lookup key = some expiry) (hlive : now < expiry) :
    tryClaimUntil sum now d key ttlSeconds = .ok (false, d) := by
  rw [tryClaimUntil, validateClaimInputs_ok hkey httl, hlookup]
  show (if expiry ≤ now then _ else _) = _
  rw [if_neg (not_le.mpr hlive)]
  rfl

end

theorem claimedKeys_tryClaim {keys : List String} {key : String} {ttlSeconds : ℤ}
    (hkey : strip key ≠ "") (httl : 0 < ttlSeconds) :
    claimedKeys.tryClaim keys key ttlSeconds =
      .ok (if key ∈ keys then (false, keys) else (true, key :: keys)) := by
  simp only [claimedKeys, validateClaimInputs_ok hkey httl]
  by_cases hmem : key ∈ keys
  · rw [if_pos hmem, if_pos hmem]
    rfl
  · rw [if_neg hmem, if_neg hmem]
    rfl

end KernelQ.ControlPlane
