import Chip8Frame.Numeric.Binary64
import Mathlib.Data.Rat.Floor
import Mathlib.Algebra.Order.Field.Power

/-! Finite floating-point numbers are rational numbers, and the words that they are cast to are
theirs: the integer part of the number, moved to the nearer end of the range if it lies outside. -/

namespace Chip8Frame.Binary64

def toRat? : Binary64 → Option ℚ
  | finite negative m e => some ((if negative then -1 else 1) * ((m : ℚ) * 2 ^ e))
  | _ => none

/-- The integer part of a rational number, towards zero. -/
def integerPart (q : ℚ) : ℤ := if 0 ≤ q then ⌊q⌋ else ⌈q⌉

theorem integerPart_intCast (k : ℤ) : integerPart (k : ℚ) = k := by
  unfold integerPart
  split <;> simp

theorem integerPart_neg (q : ℚ) : integerPart (-q) = -integerPart q := by
  unfold integerPart
  rcases lt_trichotomy q 0 with hq | rfl | hq
  · simp [hq.le, hq.not_ge, Int.floor_neg]
  · simp
  · simp [hq.le, hq.not_ge, Int.ceil_neg]

theorem integerPart_eq_zero_iff (q : ℚ) : integerPart q = 0 ↔ |q| < 1 := by
  unfold integerPart
  split
  · next hq => rw [Int.floor_eq_zero_iff, abs_of_nonneg hq, Set.mem_Ico, and_iff_right hq]
  · next hq =>
    have hneg := not_le.mp hq
    rw [Int.ceil_eq_zero_iff, abs_of_neg hneg, Set.mem_Ioc, and_iff_left hneg.le, neg_lt]

theorem floor_mul_two_zpow (m : ℕ) (e : ℤ) :
    ⌊(m : ℚ) * 2 ^ e⌋ =
      ((if 0 ≤ e then m * Nat.pow 2 e.toNat else m / Nat.pow 2 (-e).toNat : ℕ) : ℤ) := by
  split
  · next he =>
    obtain ⟨k, rfl⟩ := Int.eq_ofNat_of_zero_le he
    have hx : (m : ℚ) * 2 ^ ((k : ℕ) : ℤ) = ((m * 2 ^ k : ℕ) : ℤ) := by
      push_cast
      rw [zpow_natCast]
    rw [hx, Int.floor_intCast]
    rfl
  · next he =>
    obtain ⟨k, hk⟩ := Int.eq_ofNat_of_zero_le (Int.neg_nonneg_of_nonpos (not_le.mp he).le)
    obtain rfl : e = -(k : ℤ) := by omega
    have hx : (m : ℚ) * 2 ^ (-(k : ℤ)) = (m : ℚ) / ((2 ^ k : ℕ) : ℚ) := by
      rw [zpow_neg, zpow_natCast, div_eq_mul_inv]
      push_cast
      rfl
    rw [hx, Rat.floor_natCast_div_natCast]
    simp

theorem truncateFinite_eq (negative : Bool) (m : ℕ) (e : ℤ) :
    truncateFinite negative m e =
      integerPart ((if negative then -1 else 1) * ((m : ℚ) * 2 ^ e)) := by
  have hpos : integerPart ((m : ℚ) * 2 ^ e) = ⌊(m : ℚ) * 2 ^ e⌋ := by
    unfold integerPart
    rw [if_pos (mul_nonneg m.cast_nonneg (zpow_nonneg two_pos.le e))]
  cases negative with
  | false => simp [truncateFinite, hpos, floor_mul_two_zpow]
  | true => simp [truncateFinite, integerPart_neg, hpos, floor_mul_two_zpow]

theorem toInt_clampInt32 (n : ℤ) :
    (clampInt32 n).toInt = max Int32.minValue.toInt (min n Int32.maxValue.toInt) := by
  have hmin := Int32.toInt_minValue
  have hmax := Int32.toInt_maxValue
  unfold clampInt32
  split
  · omega
  · split
    · omega
    · rw [Int32.toInt_ofInt_of_le (by omega) (by omega)]
      omega

theorem toInt_truncateInt32 {x : Binary64} {q : ℚ} (h : x.toRat? = some q) :
    x.truncateInt32.toInt =
      max Int32.minValue.toInt (min (integerPart q) Int32.maxValue.toInt) := by
  cases x with
  | nan | infinite => cases h
  | finite negative m e =>
    obtain rfl := Option.some.inj h
    rw [truncateInt32, toInt_clampInt32, truncateFinite_eq]

theorem toInt_truncateInt32_of_int {x : Binary64} {k : ℤ} (h : x.toRat? = some (k : ℚ))
    (hmin : Int32.minValue.toInt ≤ k) (hmax : k ≤ Int32.maxValue.toInt) :
    x.truncateInt32.toInt = k := by
  rw [toInt_truncateInt32 h, integerPart_intCast, min_eq_left hmax, max_eq_right hmin]

/-- What is cast to zero: besides zero the numbers next to it, and what is no number at all. -/
theorem truncateInt32_eq_zero_iff (x : Binary64) :
    x.truncateInt32 = 0 ↔ x = .nan ∨ ∃ q, x.toRat? = some q ∧ |q| < 1 := by
  cases x with
  | nan => simp [truncateInt32]
  | infinite negative => cases negative <;> decide
  | finite negative m e =>
    have hmin := Int32.toInt_minValue
    have hmax := Int32.toInt_maxValue
    have hx : (finite negative m e).toRat? = some _ := rfl
    rw [← Int32.toInt_inj, toInt_truncateInt32 hx]
    simp only [toRat?, reduceCtorEq, false_or, Option.some.injEq, exists_eq_left',
      ← integerPart_eq_zero_iff, Int32.toInt_zero]
    omega

end Chip8Frame.Binary64
