import Mathlib.Data.Int.Log
import Mathlib.Data.Rat.Floor
import Mathlib.Order.WithBot
import Mathlib.Tactic.FieldSimp
import Mathlib.Tactic.Linarith
import Mathlib.Tactic.NormNum

/-!
# Double precision

The finite numbers of IEEE 754 `binary64` as the rationals they are, and rounding to the nearest
of them, ties to the even one. A number with 53 significant bits is left as it is
(`round_of_multiple`), so what has been rounded is a double (`round_round`).
-/

namespace KernelQ.Foundation

namespace Binary64

/-- The nearest integer, ties to the even one. -/
def roundEven (q : ℚ) : ℤ :=
  if q - ⌊q⌋ < 1 / 2 then ⌊q⌋
  else if 1 / 2 < q - ⌊q⌋ then ⌊q⌋ + 1
  else if ⌊q⌋ % 2 = 0 then ⌊q⌋ else ⌊q⌋ + 1

/-- The exponent of the unit in the last place; the subnormal numbers share theirs. -/
def exponent (q : ℚ) : ℤ := max (Int.log 2 |q| - 52) (-1074)

/-- The unit in the last place. -/
def ulp (q : ℚ) : ℚ := 2 ^ exponent q

def round (q : ℚ) : ℚ := roundEven (q / ulp q) * ulp q

/-! ## Integers -/

theorem floor_le_roundEven (q : ℚ) : ⌊q⌋ ≤ roundEven q := by
  unfold roundEven
  split_ifs <;> omega

theorem roundEven_le (q : ℚ) : roundEven q ≤ ⌊q⌋ + 1 := by
  unfold roundEven
  split_ifs <;> omega

@[simp] theorem roundEven_intCast (z : ℤ) : roundEven z = z := by
  rw [roundEven, Int.floor_intCast, sub_self, if_pos (by norm_num)]

/-- No integer is passed on the way to the nearest one. -/
theorem roundEven_le_of_le {q : ℚ} {z : ℤ} (h : q ≤ z) : roundEven q ≤ z := by
  rcases h.lt_or_eq with h | rfl
  · have hfloor : ⌊q⌋ < z := Int.floor_lt.mpr h
    exact (roundEven_le q).trans hfloor
  · exact (roundEven_intCast z).le

theorem le_roundEven_of_le {q : ℚ} {z : ℤ} (h : z ≤ q) : z ≤ roundEven q :=
  (Int.le_floor.mpr h).trans (floor_le_roundEven q)

/-! ## Rounding -/

theorem ulp_pos (q : ℚ) : 0 < ulp q := zpow_pos (by norm_num) _

theorem abs_lt_ulp (q : ℚ) : |q| < 2 ^ 53 * ulp q := by
  have hlog : |q| < 2 ^ (Int.log 2 |q| + 1) := by
    exact_mod_cast Int.lt_zpow_succ_log_self (b := 2) one_lt_two |q|
  have hle : Int.log 2 |q| + 1 ≤ 53 + exponent q := by
    have h := le_max_left (Int.log 2 |q| - 52) (-1074)
    unfold exponent
    omega
  calc |q| < 2 ^ (Int.log 2 |q| + 1) := hlog
    _ ≤ 2 ^ (53 + exponent q) := zpow_le_zpow_right₀ one_le_two hle
    _ = 2 ^ 53 * ulp q := by
        rw [zpow_add₀ two_ne_zero]
        rfl

theorem exponent_le {q : ℚ} {e : ℤ} (hne : q ≠ 0) (he : -1074 ≤ e) (hq : |q| < 2 ^ (53 + e)) :
    exponent q ≤ e := by
  refine max_le ?_ he
  have hlog : Int.log 2 |q| < 53 + e :=
    (Int.lt_zpow_iff_log_lt one_lt_two (abs_pos.mpr hne)).mp (by exact_mod_cast hq)
  omega

@[simp] theorem round_zero : round 0 = 0 := by
  rw [round, zero_div, ← Int.cast_zero, roundEven_intCast, Int.cast_zero, zero_mul]

/-- **Few enough bits** are all kept. -/
theorem round_of_multiple {m e : ℤ} (hm : |m| < 2 ^ 53) (he : -1074 ≤ e) :
    round (m * 2 ^ e) = m * 2 ^ e := by
  rcases eq_or_ne m 0 with rfl | hne
  · rw [Int.cast_zero, zero_mul, round_zero]
  have hpow : (0 : ℚ) < 2 ^ e := zpow_pos (by norm_num) e
  have habs : |(m : ℚ) * 2 ^ e| < 2 ^ (53 + e) := by
    rw [abs_mul, abs_of_pos hpow, zpow_add₀ two_ne_zero]
    have hm' : |(m : ℚ)| < 2 ^ (53 : ℤ) := by exact_mod_cast hm
    exact mul_lt_mul_of_pos_right hm' hpow
  have hle := exponent_le (mul_ne_zero (by exact_mod_cast hne) hpow.ne') he habs
  obtain ⟨k, hk⟩ := Int.eq_ofNat_of_zero_le (sub_nonneg.mpr hle)
  -- the number is a whole number of units in the last place
  have hwhole : (m : ℚ) * 2 ^ e / ulp (m * 2 ^ e) = ((m * 2 ^ k : ℤ) : ℚ) := by
    rw [ulp, mul_div_assoc, ← zpow_sub₀ two_ne_zero, hk]
    push_cast
    rw [zpow_natCast]
  rw [round, hwhole, roundEven_intCast, ← hwhole, div_mul_cancel₀ _ (ulp_pos _).ne']

/-- **What has been rounded** is not rounded any further. -/
theorem round_round (q : ℚ) : round (round q) = round q := by
  have hquotient : |q / ulp q| < 2 ^ 53 := by
    rw [abs_div, abs_of_pos (ulp_pos q), div_lt_iff₀ (ulp_pos q)]
    exact abs_lt_ulp q
  obtain ⟨hlow, hhigh⟩ := abs_lt.mp hquotient
  have hle : |roundEven (q / ulp q)| ≤ 2 ^ 53 := by
    refine abs_le.mpr ⟨le_roundEven_of_le ?_, roundEven_le_of_le ?_⟩
    · push_cast
      exact hlow.le
    · push_cast
      exact hhigh.le
  have he : -1074 ≤ exponent q := le_max_right _ _
  rcases hle.lt_or_eq with hlt | heq
  · exact round_of_multiple hlt he
  · -- rounded to a power of two, which needs one bit only
    obtain ⟨z, hz, hround⟩ : ∃ z : ℤ, |z| < 2 ^ 53 ∧ round q = z * 2 ^ (exponent q + 53) := by
      rcases (abs_eq (by norm_num)).mp heq with heq | heq
      · refine ⟨1, by norm_num, ?_⟩
        rw [round, heq, ulp, zpow_add₀ two_ne_zero, mul_comm]
        push_cast
        rw [one_mul]
      · refine ⟨-1, by norm_num, ?_⟩
        rw [round, heq, ulp, zpow_add₀ two_ne_zero, mul_comm]
        push_cast
        rw [mul_neg, neg_one_mul]
    rw [hround]
    exact round_of_multiple hz (by omega)

end Binary64

/-- A finite double, as the number it is. -/
structure Float64 where
  val : ℚ
  round_val : Binary64.round val = val
  abs_val_lt : |val| < 2 ^ 1024

namespace Float64

theorem val_injective : Function.Injective val := by
  rintro ⟨a, ha, ha'⟩ ⟨b, hb, hb'⟩ h
  obtain rfl : a = b := h
  rfl

instance : LinearOrder Float64 := LinearOrder.lift' val val_injective

/-- The naturals with 53 bits are doubles. -/
def ofNat (n : ℕ) (hlt : n < 2 ^ 53) : Float64 where
  val := n
  round_val := by
    have hround := Binary64.round_of_multiple (m := n) (e := 0) (by
      rw [Nat.abs_cast]
      exact_mod_cast hlt) (by norm_num)
    rwa [zpow_zero, mul_one, Int.cast_natCast] at hround
  abs_val_lt := by
    rw [Nat.abs_cast]
    have hbits : ((2 : ℚ) ^ 53) ≤ 2 ^ 1024 := pow_le_pow_right₀ one_le_two (by norm_num)
    have hval : (n : ℚ) < 2 ^ 53 := by exact_mod_cast hlt
    exact hval.trans_le hbits

/-- The double nearest to a number; `⊤` is the infinity. Numbers that round to the negative
infinity are left out. -/
@[irreducible] def ofRat (q : ℚ) : WithTop Float64 :=
  if h : |Binary64.round q| < 2 ^ 1024 then
    ((⟨Binary64.round q, Binary64.round_round q, h⟩ : Float64) : WithTop Float64)
  else ⊤

end Float64

end KernelQ.Foundation
