import Chip8Frame.Proofs.Truncation

/-! The floor of a quotient by a power of two. The quotient is exact unless it falls among the
smallest numbers, where it is rounded; there all floors are zero or minus one, and only a negative
quotient that is rounded to zero has another floor than the exact one. -/

namespace Chip8Frame.Binary64

section Floor

theorem floor_intCast_mul_two_zpow (a e : ℤ) :
    ⌊(a : ℚ) * 2 ^ e⌋ =
      if 0 ≤ e then a * (Nat.pow 2 e.toNat : ℕ) else a / (Nat.pow 2 (-e).toNat : ℕ) := by
  split
  · next he =>
    obtain ⟨k, rfl⟩ := Int.eq_ofNat_of_zero_le he
    have hx : (a : ℚ) * 2 ^ ((k : ℕ) : ℤ) = ((a * (2 ^ k : ℕ) : ℤ) : ℚ) := by
      push_cast
      rw [zpow_natCast]
    rw [hx, Int.floor_intCast]
    rfl
  · next he =>
    obtain ⟨k, hk⟩ := Int.eq_ofNat_of_zero_le (Int.neg_nonneg_of_nonpos (not_le.mp he).le)
    obtain rfl : e = -(k : ℤ) := by omega
    have hx : (a : ℚ) * 2 ^ (-(k : ℤ)) = (a : ℚ) / ((2 ^ k : ℕ) : ℚ) := by
      rw [zpow_neg, zpow_natCast, div_eq_mul_inv]
      push_cast
      rfl
    rw [hx, Rat.floor_intCast_div_natCast]
    simp

theorem floorFinite_eq (negative : Bool) (m : ℕ) (e : ℤ) :
    floorFinite negative m e = ⌊(if negative then -1 else 1) * ((m : ℚ) * 2 ^ e)⌋ := by
  have hx : (if negative then -1 else 1) * ((m : ℚ) * 2 ^ e) =
      ((if negative then -(m : ℤ) else m : ℤ) : ℚ) * 2 ^ e := by
    cases negative <;> simp
  rw [hx, floor_intCast_mul_two_zpow]
  rfl

theorem toInt_floorInt32 {x : Binary64} {q : ℚ} (h : x.toRat? = some q) :
    x.floorInt32.toInt = max Int32.minValue.toInt (min ⌊q⌋ Int32.maxValue.toInt) := by
  cases x with
  | nan | infinite => cases h
  | finite negative m e =>
    obtain rfl := Option.some.inj h
    rw [floorInt32, toInt_clampInt32, floorFinite_eq]

end Floor

section Rounding

variable {m d : ℕ}

theorem roundedQuotient_eq_zero_iff (hd : 0 < d) : roundedQuotient m d = 0 ↔ 2 * m ≤ d := by
  have hm := Nat.div_add_mod m d
  have hr := Nat.mod_lt m hd
  simp only [roundedQuotient]
  by_cases hlt : m < d
  · rw [Nat.div_eq_of_lt hlt, Nat.mod_eq_of_lt hlt]
    split_ifs <;> grind
  · have hq : 0 < m / d := Nat.div_pos (not_lt.mp hlt) hd
    split_ifs <;> grind

theorem roundedQuotient_le (m d : ℕ) : roundedQuotient m d ≤ m / d + 1 := by
  simp only [roundedQuotient]
  split_ifs <;> omega

theorem tiny_lt_one {n : ℕ} {e : ℤ} (hn : n ≤ 2 ^ 53) (he : e ≤ leastExponent) :
    (n : ℚ) * 2 ^ e < 1 := by
  have hn' : (n : ℚ) ≤ 2 ^ (53 : ℤ) := by exact_mod_cast hn
  have he' : (2 : ℚ) ^ e ≤ 2 ^ leastExponent := zpow_le_zpow_right₀ one_le_two he
  calc (n : ℚ) * 2 ^ e ≤ 2 ^ (53 : ℤ) * 2 ^ leastExponent :=
        mul_le_mul hn' he' (zpow_nonneg two_pos.le e) (zpow_nonneg two_pos.le _)
    _ = 2 ^ (53 + leastExponent) := (zpow_add₀ two_ne_zero _ _).symm
    _ < 1 := zpow_lt_one_of_neg₀ one_lt_two (by decide)

end Rounding

/-- The floor of a quotient by `2 ^ k` as it is found: a negative quotient that is at most half of
the least number away from zero counts as zero. -/
def quotientFloor (k : ℕ) (q : ℚ) : ℤ :=
  if q < 0 ∧ -2 ^ (leastExponent - 1) ≤ q / 2 ^ k then 0 else ⌊q / 2 ^ k⌋

theorem quotientFloor_of_nonneg {q : ℚ} (k : ℕ) (hq : 0 ≤ q) :
    quotientFloor k q = ⌊q / 2 ^ k⌋ :=
  if_neg fun h => absurd h.1 (not_lt.mpr hq)

theorem quotientFloor_nonpos {q : ℚ} (k : ℕ) (hq : q < 0) : quotientFloor k q ≤ 0 := by
  have hk : (0 : ℚ) < 2 ^ k := pow_pos two_pos k
  unfold quotientFloor
  split
  · exact le_rfl
  · exact (Int.floor_lt.mpr (by simpa using div_neg_of_neg_of_pos hq hk)).le

theorem quotientFloor_mono (k : ℕ) {q r : ℚ} (h : q ≤ r) :
    quotientFloor k q ≤ quotientFloor k r := by
  have hk : (0 : ℚ) < 2 ^ k := pow_pos two_pos k
  have hdiv : q / 2 ^ k ≤ r / 2 ^ k := div_le_div_of_nonneg_right h hk.le
  by_cases hq : q < 0 ∧ -2 ^ (leastExponent - 1) ≤ q / 2 ^ k
  · by_cases hr : r < 0
    · unfold quotientFloor
      rw [if_pos hq, if_pos ⟨hr, hq.2.trans hdiv⟩]
    · have hr := not_lt.mp hr
      rw [quotientFloor, if_pos hq, quotientFloor_of_nonneg k hr]
      exact Int.floor_nonneg.mpr (div_nonneg hr hk.le)
  · by_cases hr : r < 0 ∧ -2 ^ (leastExponent - 1) ≤ r / 2 ^ k
    · have hneg := quotientFloor_nonpos k (h.trans_lt hr.1)
      rwa [quotientFloor.eq_def k r, if_pos hr]
    · unfold quotientFloor
      rw [if_neg hq, if_neg hr]
      exact Int.floor_mono hdiv

section Quotient

variable {k m : ℕ} {e : ℤ}

theorem div_two_pow (m k : ℕ) (e : ℤ) : (m : ℚ) * 2 ^ e / 2 ^ k = m * 2 ^ (e - k) := by
  rw [zpow_sub₀ two_ne_zero, zpow_natCast, mul_div_assoc]

theorem leastExponent_halved : (2 : ℚ) ^ leastExponent = 2 * 2 ^ (leastExponent - 1) := by
  rw [zpow_sub_one₀ two_ne_zero]
  ring

theorem floor_neg_tiny {y : ℚ} (hpos : 0 < y) (hlt : y < 1) : ⌊-y⌋ = -1 := by
  rw [Int.floor_eq_iff]
  constructor <;> push_cast <;> linarith

theorem quotientFloor_exact (negative : Bool) (he : leastExponent ≤ e - k) :
    ⌊(if negative then -1 else 1) * ((m : ℚ) * 2 ^ (e - k))⌋ =
      quotientFloor k ((if negative then -1 else 1) * ((m : ℚ) * 2 ^ e)) := by
  have hk : (0 : ℚ) < 2 ^ k := pow_pos two_pos k
  rw [quotientFloor, mul_div_assoc, div_two_pow]
  refine (if_neg ?_).symm
  rintro ⟨hneg, hnear⟩
  have hleast : (0 : ℚ) < 2 ^ (leastExponent - 1) := zpow_pos two_pos _
  have hstep : (2 : ℚ) ^ leastExponent ≤ 2 ^ (e - k) := zpow_le_zpow_right₀ one_le_two he
  rw [leastExponent_halved] at hstep
  cases negative with
  | false =>
    have hq : (0 : ℚ) ≤ m * 2 ^ e := mul_nonneg m.cast_nonneg (zpow_nonneg two_pos.le e)
    simp at hneg
    linarith
  | true =>
    have hm : (1 : ℚ) ≤ m := by
      rcases Nat.eq_zero_or_pos m with rfl | hm
      · simp at hneg
      · exact_mod_cast hm
    have hq := mul_le_mul hm hstep (by positivity) m.cast_nonneg
    simp only [if_true, neg_one_mul, neg_le_neg_iff] at hnear
    linarith

theorem rounded_zero_iff {j : ℕ} (hj : leastExponent - (e - k) = j) :
    roundedQuotient m (Nat.pow 2 j) = 0 ↔ (m : ℚ) * 2 ^ (e - k) ≤ 2 ^ (leastExponent - 1) := by
  have hpos : (0 : ℚ) < 2 ^ (e - k) := zpow_pos two_pos _
  have hunit : (2 : ℚ) ^ leastExponent = 2 ^ j * 2 ^ (e - k) := by
    rw [← zpow_natCast, ← zpow_add₀ two_ne_zero, ← hj, sub_add_cancel]
  rw [leastExponent_halved] at hunit
  have hhalf : (m : ℚ) * 2 ^ (e - k) ≤ 2 ^ (leastExponent - 1) ↔
      2 * (m : ℚ) * 2 ^ (e - k) ≤ 2 ^ j * 2 ^ (e - k) := by
    rw [← hunit]
    constructor <;> intro h <;> linarith
  have hzero : roundedQuotient m (Nat.pow 2 j) = 0 ↔ 2 * m ≤ 2 ^ j :=
    roundedQuotient_eq_zero_iff (Nat.two_pow_pos j)
  rw [hzero, hhalf, mul_le_mul_iff_of_pos_right hpos]
  exact_mod_cast Iff.rfl

theorem quotientFloor_rounded (negative : Bool) (hm : m < 2 ^ 53) (he : e - k < leastExponent) :
    ⌊(if negative then -1 else 1) *
        ((roundedQuotient m (Nat.pow 2 (leastExponent - (e - k)).toNat) : ℚ) * 2 ^ leastExponent)⌋ =
      quotientFloor k ((if negative then -1 else 1) * ((m : ℚ) * 2 ^ e)) := by
  obtain ⟨j, hj⟩ := Int.eq_ofNat_of_zero_le (show 0 ≤ leastExponent - (e - k) by omega)
  have hzero := rounded_zero_iff (m := m) hj
  rw [hj, Int.toNat_natCast]
  have hr : roundedQuotient m (Nat.pow 2 j) ≤ 2 ^ 53 :=
    (roundedQuotient_le m _).trans (Nat.succ_le_of_lt ((Nat.div_le_self m _).trans_lt hm))
  generalize roundedQuotient m (Nat.pow 2 j) = r at hzero hr ⊢
  have hexact := tiny_lt_one hm.le he.le
  have hround := tiny_lt_one hr le_rfl
  have hstep : (0 : ℚ) < 2 ^ leastExponent := zpow_pos two_pos _
  have hexact₀ : (0 : ℚ) ≤ m * 2 ^ (e - k) := by positivity
  have hround₀ : (0 : ℚ) ≤ r * 2 ^ leastExponent := by positivity
  cases negative with
  | false =>
    simp only [Bool.false_eq_true, if_false, one_mul]
    rw [quotientFloor_of_nonneg k (by positivity), div_two_pow,
      Int.floor_eq_zero_iff.mpr ⟨hround₀, hround⟩, Int.floor_eq_zero_iff.mpr ⟨hexact₀, hexact⟩]
  | true =>
    simp only [if_true, neg_one_mul]
    rcases Nat.eq_zero_or_pos m with rfl | hmpos
    · obtain rfl : r = 0 := hzero.mpr (by simpa using (zpow_pos two_pos _).le)
      simp [quotientFloor]
    have hneg : -((m : ℚ) * 2 ^ e) < 0 := neg_neg_of_pos (by positivity)
    simp only [quotientFloor, neg_div, div_two_pow, neg_le_neg_iff, ← hzero, hneg, true_and]
    rcases Nat.eq_zero_or_pos r with rfl | hrpos
    · simp
    · rw [if_neg hrpos.ne', floor_neg_tiny (by positivity) hround,
        floor_neg_tiny (by positivity) hexact]

end Quotient

/-- The quotient by a power of two of a finite number is finite, and its floor is found. -/
theorem floor_scaleDown {x : Binary64} {q : ℚ} (k : ℕ) (hx : x.IsCanonical)
    (h : x.toRat? = some q) :
    (x.scaleDown k).floorInt32.toInt =
      max Int32.minValue.toInt (min (quotientFloor k q) Int32.maxValue.toInt) := by
  cases x with
  | nan | infinite => cases h
  | finite negative m e =>
    obtain rfl := Option.some.inj h
    simp only [scaleDown]
    split
    · next he => rw [toInt_floorInt32 rfl, quotientFloor_exact negative he]
    · next he => rw [toInt_floorInt32 rfl, quotientFloor_rounded negative hx.1 (not_le.mp he)]

/-- The order of all numbers, infinite ones included. -/
inductive Le : Binary64 → Binary64 → Prop where
  | least {y : Binary64} (hy : y ≠ nan) : Le (infinite true) y
  | greatest {x : Binary64} (hx : x ≠ nan) : Le x (infinite false)
  | finite {x y : Binary64} {q r : ℚ} (hx : x.toRat? = some q) (hy : y.toRat? = some r)
      (h : q ≤ r) : Le x y

theorem floor_scaleDown_mono {x y : Binary64} (k : ℕ) (hx : x.IsCanonical) (hy : y.IsCanonical)
    (h : Le x y) : (x.scaleDown k).floorInt32 ≤ (y.scaleDown k).floorInt32 := by
  rw [Int32.le_iff_toInt_le]
  cases h with
  | least => exact Int32.minValue_le_toInt _
  | greatest => exact Int32.toInt_le _
  | finite hq hr h =>
    rw [floor_scaleDown k hx hq, floor_scaleDown k hy hr]
    exact max_le_max_left _ (min_le_min_right _ (quotientFloor_mono k h))

end Chip8Frame.Binary64
