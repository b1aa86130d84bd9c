import KernelQ.Foundation.Json

/-!
# Limits of a reader

Readers of JSON give up on an integer with too many digits and on values that are nested
too deep, whether the value is looked at or not.
-/

namespace KernelQ.Foundation

/-- The decimal digits of an integer. -/
def intDigits (i : ℤ) : ℕ := (Nat.toDigits 10 i.natAbs).length

namespace Json

mutual

/-- The digits of the longest integer in a value. -/
def longestInt : Json → ℕ
  | int i => intDigits i
  | arr items => longestIntOfItems items
  | obj fields => longestIntOfFields fields
  | _ => 0

def longestIntOfItems : List Json → ℕ
  | [] => 0
  | x :: xs => max x.longestInt (longestIntOfItems xs)

def longestIntOfFields : List (String × Json) → ℕ
  | [] => 0
  | (_, x) :: fs => max x.longestInt (longestIntOfFields fs)

end

mutual

/-- How many arrays and objects are inside one another. -/
def depth : Json → ℕ
  | arr items => depthOfItems items + 1
  | obj fields => depthOfFields fields + 1
  | _ => 0

def depthOfItems : List Json → ℕ
  | [] => 0
  | x :: xs => max x.depth (depthOfItems xs)

def depthOfFields : List (String × Json) → ℕ
  | [] => 0
  | (_, x) :: fs => max x.depth (depthOfFields fs)

end

end Json

/-- What a reader takes: digits of an integer, and arrays and objects inside one another. -/
structure JsonLimits where
  digits : ℕ
  depth : ℕ
  depth_pos : 0 < depth

/-- The value is within the limits. -/
structure JsonLimits.Takes (limits : JsonLimits) (v : Json) : Prop where
  digits : v.longestInt ≤ limits.digits
  depth : v.depth ≤ limits.depth

instance (limits : JsonLimits) (v : Json) : Decidable (limits.Takes v) :=
  decidable_of_iff (v.longestInt ≤ limits.digits ∧ v.depth ≤ limits.depth)
    ⟨fun h => ⟨h.1, h.2⟩, fun h => ⟨h.digits, h.depth⟩⟩

/-- What is done within the limits only. -/
theorem JsonLimits.checked_eq_ok_iff {limits : JsonLimits} {v : Json} {ε α : Type*}
    {digits depth : ε} {x : Except ε α} {a : α} :
    (if limits.digits < v.longestInt then .error digits
      else if limits.depth < v.depth then .error depth else x) = .ok a ↔
        limits.Takes v ∧ x = .ok a := by
  by_cases hdigits : limits.digits < v.longestInt
  · rw [if_pos hdigits]
    constructor
    · intro h
      cases h
    · rintro ⟨htakes, -⟩
      exact absurd htakes.digits (not_le.mpr hdigits)
  by_cases hdepth : limits.depth < v.depth
  · rw [if_neg hdigits, if_pos hdepth]
    constructor
    · intro h
      cases h
    · rintro ⟨htakes, -⟩
      exact absurd htakes.depth (not_le.mpr hdepth)
  rw [if_neg hdigits, if_neg hdepth, and_iff_right ⟨not_lt.mp hdigits, not_lt.mp hdepth⟩]

end KernelQ.Foundation
