import Chip8Frame.Browser.Frame
import Chip8Frame.Proofs.Flooring

/-! Numbers that are read or computed are canonical. A rounded quotient has a mantissa of 53 bits or
the least exponent, and all reading of numbers ends in such a quotient; so every width that a frame
finds is canonical, as long as the window gives a number of 64 bits. -/

namespace Chip8Frame

namespace Binary64

section Quotient

variable {num den a b : ℕ}

theorem div_le_roundedQuotient (num den : ℕ) : num / den ≤ roundedQuotient num den := by
  simp only [roundedQuotient]
  split_ifs <;> omega

theorem le_roundedQuotient (hd : 0 < den) (h : a * den ≤ num) : a ≤ roundedQuotient num den :=
  ((Nat.le_div_iff_mul_le hd).mpr h).trans (div_le_roundedQuotient num den)

theorem roundedQuotient_le_of_lt (h : num < b * den) : roundedQuotient num den ≤ b :=
  (roundedQuotient_le num den).trans (Nat.div_lt_of_lt_mul (Nat.mul_comm b den ▸ h))

end Quotient

section Exponent

variable {num den : ℕ}

theorem inUnits_lt_iff (num den c : ℕ) (e : ℤ) :
    (inUnits num den e).1 < c * (inUnits num den e).2 ↔ (num : ℚ) < c * den * 2 ^ e := by
  have hsplit : (2 : ℚ) ^ e.toNat = 2 ^ e * 2 ^ (-e).toNat := by
    rw [← zpow_natCast, ← zpow_natCast, ← zpow_add₀ two_ne_zero]
    congr 1
    omega
  have hpos : (0 : ℚ) < 2 ^ (-e).toNat := pow_pos two_pos _
  have hscale : (c : ℚ) * den * 2 ^ e * 2 ^ (-e).toNat = c * (den * 2 ^ e.toNat) := by
    rw [hsplit]
    ring
  rw [← mul_lt_mul_iff_of_pos_right hpos, hscale]
  exact_mod_cast Iff.rfl

theorem le_inUnits_iff (num den c : ℕ) (e : ℤ) :
    c * (inUnits num den e).2 ≤ (inUnits num den e).1 ↔ (c : ℚ) * den * 2 ^ e ≤ num := by
  rw [← not_lt, ← not_lt, inUnits_lt_iff]

theorem lt_guess (num : ℕ) (hd : den ≠ 0) :
    (num : ℚ) < 2 ^ 53 * den * 2 ^ ((num.log2 : ℤ) - den.log2 - 52) := by
  have hn : (num : ℚ) < 2 ^ (num.log2 + 1) := by exact_mod_cast Nat.lt_log2_self
  have hden : (2 : ℚ) ^ den.log2 ≤ den := by exact_mod_cast Nat.log2_self_le hd
  have hpow : (2 : ℚ) ^ (num.log2 + 1) =
      2 ^ 53 * 2 ^ den.log2 * 2 ^ ((num.log2 : ℤ) - den.log2 - 52) := by
    simp only [← zpow_natCast, ← zpow_add₀ (two_ne_zero' ℚ)]
    congr 1
    push_cast
    omega
  rw [hpow] at hn
  refine hn.trans_le ?_
  gcongr

theorem guess_le (den : ℕ) (hn : num ≠ 0) :
    2 ^ 51 * (den : ℚ) * 2 ^ ((num.log2 : ℤ) - den.log2 - 52) ≤ num := by
  have hnum : (2 : ℚ) ^ num.log2 ≤ num := by exact_mod_cast Nat.log2_self_le hn
  have hden : (den : ℚ) ≤ 2 ^ (den.log2 + 1) := by exact_mod_cast Nat.lt_log2_self.le
  have hpow : (2 : ℚ) ^ num.log2 =
      2 ^ 51 * 2 ^ (den.log2 + 1) * 2 ^ ((num.log2 : ℤ) - den.log2 - 52) := by
    simp only [← zpow_natCast, ← zpow_add₀ (two_ne_zero' ℚ)]
    congr 1
    push_cast
    omega
  rw [hpow] at hnum
  refine le_trans ?_ hnum
  gcongr

/-- The exponent that is found gives a mantissa of 53 bits, or is the least one. -/
theorem exponentOf_spec (hn : num ≠ 0) (hd : den ≠ 0) :
    (num : ℚ) < 2 ^ 53 * den * 2 ^ exponentOf num den ∧ leastExponent ≤ exponentOf num den ∧
      (2 ^ 52 * (den : ℚ) * 2 ^ exponentOf num den ≤ num ∨
        exponentOf num den = leastExponent) := by
  have hlt := lt_guess num hd
  have hle := guess_le den hn
  simp only [exponentOf]
  generalize hg : (num.log2 : ℤ) - den.log2 - 52 = guess at hlt hle ⊢
  have hu : 0 < (inUnits num den guess).2 :=
    Nat.mul_pos (Nat.pos_of_ne_zero hd) (Nat.two_pow_pos _)
  obtain ⟨e, he, hupper, hlower⟩ : ∃ e : ℤ,
      (if (inUnits num den guess).1 / (inUnits num den guess).2 < Nat.pow 2 52 then guess - 1
        else guess) = e ∧
      (num : ℚ) < 2 ^ 53 * den * 2 ^ e ∧ 2 ^ 52 * (den : ℚ) * 2 ^ e ≤ num := by
    rw [show (guess : ℤ) = guess - 1 + 1 by ring, zpow_add_one₀ two_ne_zero] at hlt hle
    split
    · next hsmall =>
      have hs := (Nat.div_lt_iff_lt_mul hu).mp hsmall
      have hs' := (inUnits_lt_iff num den (2 ^ 52) guess).mp hs
      refine ⟨guess - 1, rfl, ?_, ?_⟩
      · push_cast at hs'
        rw [show (guess : ℤ) = guess - 1 + 1 by ring, zpow_add_one₀ two_ne_zero] at hs'
        linarith
      · linarith
    · next hlarge =>
      have hs := (Nat.le_div_iff_mul_le hu).mp (not_lt.mp hlarge)
      have hs' := (le_inUnits_iff num den (2 ^ 52) guess).mp hs
      push_cast at hs'
      exact ⟨guess, rfl, by rwa [← zpow_add_one₀ two_ne_zero, sub_add_cancel] at hlt, hs'⟩
  rw [he]
  rcases le_total leastExponent e with hmax | hmax
  · rw [max_eq_right hmax]
    exact ⟨hupper, hmax, .inl hlower⟩
  · rw [max_eq_left hmax]
    refine ⟨hupper.trans_le ?_, le_rfl, .inr rfl⟩
    gcongr
    exact one_le_two

end Exponent

theorem zero_canonical (negative : Bool) : (finite negative 0 leastExponent).IsCanonical :=
  ⟨by decide, le_rfl, by decide, .inr rfl⟩

theorem ofRatio_canonical (negative : Bool) (num : ℕ) {den : ℕ} (hd : den ≠ 0) :
    (ofRatio negative num den).IsCanonical := by
  unfold ofRatio
  split
  · exact zero_canonical negative
  · next hn =>
    obtain ⟨hupper, hleast, hlower⟩ := exponentOf_spec hn hd
    dsimp only
    generalize exponentOf num den = e at hupper hleast hlower ⊢
    have hu : 0 < (inUnits num den e).2 := Nat.mul_pos (Nat.pos_of_ne_zero hd) (Nat.two_pow_pos _)
    have hm : roundedQuotient (inUnits num den e).1 (inUnits num den e).2 ≤ Nat.pow 2 53 :=
      roundedQuotient_le_of_lt ((inUnits_lt_iff num den (2 ^ 53) e).mpr (by exact_mod_cast hupper))
    have hlow : Nat.pow 2 52 ≤ roundedQuotient (inUnits num den e).1 (inUnits num den e).2 ∨
        e = leastExponent := by
      refine hlower.imp_left fun h => ?_
      exact le_roundedQuotient hu ((le_inUnits_iff num den (2 ^ 52) e).mpr (by exact_mod_cast h))
    generalize roundedQuotient (inUnits num den e).1 (inUnits num den e).2 = m at hm hlow ⊢
    have hpow : Nat.pow 2 52 < Nat.pow 2 53 := by decide
    by_cases hfull : m = Nat.pow 2 53
    · -- rounding carried into the next exponent
      simp only [hfull, if_true]
      split
      · trivial
      · next hgreat => exact ⟨hpow, by omega, not_lt.mp hgreat, .inl le_rfl⟩
    · simp only [hfull, if_false]
      split
      · trivial
      · next hgreat => exact ⟨lt_of_le_of_ne hm hfull, hleast, not_lt.mp hgreat, hlow⟩

theorem ofDecimal_canonical (negative : Bool) (digits : ℕ) (scale : ℤ) :
    (ofDecimal negative digits scale).IsCanonical := by
  simp only [ofDecimal]
  split_ifs
  · exact zero_canonical negative
  · trivial
  · exact zero_canonical negative
  · exact ofRatio_canonical negative _ (Nat.pow_pos (by decide)).ne'

theorem ofInt_canonical (n : ℤ) : (ofInt n).IsCanonical := ofRatio_canonical _ _ one_ne_zero

theorem scaleDown_canonical {x : Binary64} (k : ℕ) (hx : x.IsCanonical) :
    (x.scaleDown k).IsCanonical := by
  cases x with
  | nan | infinite => trivial
  | finite negative m e =>
    obtain ⟨hm, hleast, hgreat, hlow⟩ := hx
    simp only [scaleDown]
    split
    · next he => exact ⟨hm, he, by omega, hlow.imp_right fun h => by omega⟩
    · next he =>
      obtain ⟨j, hj⟩ := Int.eq_ofNat_of_zero_le (show 0 ≤ leastExponent - (e - k) - 1 by omega)
      have hshift : (leastExponent - (e - k)).toNat = j + 1 := by omega
      have hhalf : m < Nat.pow 2 52 * Nat.pow 2 (j + 1) := by
        calc m < 2 ^ 52 * 2 ^ 1 := hm
          _ ≤ 2 ^ 52 * 2 ^ (j + 1) := by gcongr <;> omega
      have hr := roundedQuotient_le_of_lt hhalf
      rw [hshift]
      exact ⟨hr.trans_lt (by decide), le_rfl, by decide, .inr rfl⟩

end Binary64

namespace Decimal

/-- Whatever may follow its digits, a number is made by rounding. -/
theorem canonical_of_tail {negative empty : Bool} {digits places : ℕ} {rest : List Char}
    {x : Binary64}
    (h : (if empty then none
      else match rest with
        | [] => some (Binary64.ofDecimal negative digits (0 - places))
        | c :: more =>
            if c = 'e' ∨ c = 'E' then
              (readExponent more).map fun e => Binary64.ofDecimal negative digits (e - places)
            else none) = some x) : x.IsCanonical := by
  cases empty with
  | true => cases h
  | false =>
    cases rest with
    | nil =>
      obtain rfl := Option.some.inj h
      exact Binary64.ofDecimal_canonical ..
    | cons c more =>
      simp only [Bool.false_eq_true, if_false, Option.ite_none_right_eq_some] at h
      obtain ⟨e, -, rfl⟩ := Option.map_eq_some_iff.mp h.2
      exact Binary64.ofDecimal_canonical ..

theorem readUnsigned_canonical {negative : Bool} {cs : List Char} {x : Binary64}
    (h : readUnsigned negative cs = some x) : x.IsCanonical := by
  simp only [readUnsigned] at h
  split at h
  · exact canonical_of_tail h
  · exact canonical_of_tail h

theorem readMagnitude_canonical {negative : Bool} {cs : List Char} {x : Binary64}
    (h : readMagnitude negative cs = some x) : x.IsCanonical := by
  simp only [readMagnitude] at h
  split_ifs at h
  · obtain rfl := Option.some.inj h
    trivial
  · obtain rfl := Option.some.inj h
    trivial
  · exact readUnsigned_canonical h

theorem read_canonical {s : String} {x : Binary64} (h : read s = some x) : x.IsCanonical := by
  unfold read at h
  split at h <;> exact readMagnitude_canonical h

end Decimal

namespace Browser.Frame

theorem elementWidth_canonical (n : Node) : (elementWidth n).IsCanonical := by
  simp only [elementWidth]
  split
  · cases hr : Decimal.read (Text.trim ((n.attribute? "width").getD "")) with
    | none => exact Binary64.ofInt_canonical _
    | some x => exact Decimal.read_canonical hr
  · exact Binary64.ofInt_canonical _

theorem currentWidth_canonical {r : Realm} (h : (windowWidth r).IsCanonical) :
    (currentWidth r).IsCanonical := by
  unfold currentWidth
  split
  · exact elementWidth_canonical _
  · exact h

end Browser.Frame

end Chip8Frame
