import Mathlib.Data.Int.Log
import Mathlib.Data.Rat.Floor
import Mathlib.Tactic.Linarith

/-! Rounding to a number of the format binary64, on rational numbers: 53 significant bits, exponents from
-1074 on, and of two nearest numbers the one whose last bit is zero. The format ends at `2 ^ 1024`; numbers
beyond are rounded here as if it did not. -/

namespace Double

/-- The nearest integer, and of two of them the even one. -/
def nearestEven (q : ℚ) : ℤ :=
  if q - ⌊q⌋ < 1 / 2 then ⌊q⌋
  else if 1 / 2 < q - ⌊q⌋ then ⌊q⌋ + 1
  else if ⌊q⌋ % 2 = 0 then ⌊q⌋ else ⌊q⌋ + 1

/-- The exponent of the last significant bit. -/
def lastPlace (q : ℚ) : ℤ := max (Int.log 2 |q| - 52) (-1074)

def round (q : ℚ) : ℚ := nearestEven (q / 2 ^ lastPlace q) * 2 ^ lastPlace q

@[simp] theorem nearestEven_intCast (n : ℤ) : nearestEven n = n := by
  rw [nearestEven, Int.floor_intCast, if_pos (by norm_num)]

theorem nearestEven_nonneg {q : ℚ} (hq : 0 ≤ q) : 0 ≤ nearestEven q := by
  have hfloor : 0 ≤ ⌊q⌋ := Int.floor_nonneg.mpr hq
  unfold nearestEven
  split_ifs <;> omega

theorem place_pos (e : ℤ) : (0 : ℚ) < 2 ^ e := zpow_pos two_pos e

theorem round_nonneg {q : ℚ} (hq : 0 ≤ q) : 0 ≤ round q := by
  have hquotient : 0 ≤ q / 2 ^ lastPlace q := div_nonneg hq (place_pos _).le
  exact mul_nonneg (by exact_mod_cast nearestEven_nonneg hquotient) (place_pos _).le

/-- The last place of a number of 53 bits is none of those that it has. -/
theorem lastPlace_le {m e : ℤ} (hm : |m| < 2 ^ 53) (hne : m ≠ 0) (he : -1074 ≤ e) :
    lastPlace (m * 2 ^ e) ≤ e := by
  have hpos : 0 < |(m : ℚ) * 2 ^ e| :=
    abs_pos.mpr (mul_ne_zero (Int.cast_ne_zero.mpr hne) (place_pos e).ne')
  have hlt : |(m : ℚ) * 2 ^ e| < 2 ^ (53 + e) := by
    rw [abs_mul, abs_of_pos (place_pos e), zpow_add₀ two_ne_zero]
    exact mul_lt_mul_of_pos_right (by exact_mod_cast hm) (place_pos e)
  have hlog : Int.log 2 |(m : ℚ) * 2 ^ e| < 53 + e :=
    (Int.lt_zpow_iff_log_lt (by decide) hpos).mp (by exact_mod_cast hlt)
  exact max_le (by omega) he

/-- A number of 53 bits stays as it is. -/
theorem round_eq_self {m e : ℤ} (hm : |m| < 2 ^ 53) (he : -1074 ≤ e) : round (m * 2 ^ e) = m * 2 ^ e := by
  by_cases hne : m = 0
  · subst hne
    rw [Int.cast_zero, zero_mul, round, zero_div, ← Int.cast_zero, nearestEven_intCast, Int.cast_zero,
      zero_mul]
  · obtain ⟨n, hn⟩ := Int.eq_ofNat_of_zero_le (Int.sub_nonneg_of_le (lastPlace_le hm hne he))
    have hquotient : (m * 2 ^ e : ℚ) / 2 ^ lastPlace (m * 2 ^ e) = ((m * 2 ^ n : ℤ) : ℚ) := by
      rw [mul_div_assoc, ← zpow_sub₀ two_ne_zero, hn, zpow_natCast]
      push_cast
      rfl
    rw [round, hquotient, nearestEven_intCast, ← hquotient, div_mul_cancel₀ _ (place_pos _).ne']

theorem round_intCast {n : ℤ} (hn : |n| < 2 ^ 53) : round n = n := by
  have h := @round_eq_self n 0 hn (by decide)
  rwa [zpow_zero, mul_one] at h

end Double
