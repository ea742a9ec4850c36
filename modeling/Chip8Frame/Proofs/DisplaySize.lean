import Chip8Frame.Proofs.Rebuilding
import Chip8Frame.Proofs.Rounding
import Chip8Frame.Proofs.SurfaceLog

/-! The size of a display against the width that was available. The display fits into the width and
leaves less than one of its columns unused, as long as the width has 32 bits; beyond that each
direction stops at the greatest word, and a width below zero leaves nothing. -/

namespace Chip8Frame.Boot

open Binary64 (quotientFloor)
open Surface (Manager Operation)

theorem Variant.columns_eq (v : Variant) : v.columns = 2 ^ v.columnsExponent := rfl

theorem Variant.columns_eq_two_mul_rows (v : Variant) : v.columns = 2 * v.rows := by
  cases v <;> rfl

theorem Variant.columns_cases (v : Variant) : v.columns = 64 ∨ v.columns = 128 := by
  cases v
  · exact .inl rfl
  · exact .inr rfl

section PixelSize

variable {w : Binary64} {q : ℚ} (v : Variant)

theorem pixelSize_toInt (hw : w.IsCanonical) (hq : w.toRat? = some q) :
    (pixelSize w v).toInt = max Int32.minValue.toInt
      (min (quotientFloor v.columnsExponent q) Int32.maxValue.toInt) :=
  Binary64.floor_scaleDown _ hw hq

theorem pixelSize_of_nonneg (hw : w.IsCanonical) (hq : w.toRat? = some q) (hpos : 0 ≤ q) :
    (pixelSize w v).toInt = min ⌊q / v.columns⌋ Int32.maxValue.toInt := by
  have hmax := Int32.toInt_maxValue
  have hmin := Int32.toInt_minValue
  have hcolumns : (v.columns : ℚ) = 2 ^ v.columnsExponent := by
    rw [v.columns_eq]
    push_cast
    rfl
  have hfloor : 0 ≤ ⌊q / v.columns⌋ := Int.floor_nonneg.mpr (div_nonneg hpos v.columns.cast_nonneg)
  rw [pixelSize_toInt v hw hq, Binary64.quotientFloor_of_nonneg _ hpos, ← hcolumns]
  omega

theorem pixelSize_nonpos (hw : w.IsCanonical) (hq : w.toRat? = some q) (hneg : q < 0) :
    (pixelSize w v).toInt ≤ 0 := by
  have hmax := Int32.toInt_maxValue
  have hmin := Int32.toInt_minValue
  have hfloor := Binary64.quotientFloor_nonpos v.columnsExponent hneg
  rw [pixelSize_toInt v hw hq]
  omega

end PixelSize

/-- The display that is mounted for a configuration has this size, whatever was live before. -/
def Config.Mounts (c : Config) (width height : ℤ) : Prop :=
  ∀ m : Manager, ∃ w h : UInt32,
    (Surface.calls ((Operation.createDisplay c).change m).effects).getLast? =
      some (.mountDisplay w h) ∧ (w.toNat : ℤ) = width ∧ (h.toNat : ℤ) = height

theorem toNat_clampUInt32 (n : Nat) :
    (Config.displaySize.clampUInt32 n).toNat = min n (2 ^ 32 - 1) := by
  have hsize : UInt32.size = 2 ^ 32 := rfl
  rw [Config.displaySize.clampUInt32, UInt32.toNat_ofNat_of_lt' (by omega), hsize]

theorem Config.mounts_displaySize (c : Config) :
    c.Mounts (min (c.variant.columns * max c.pixelSize.toInt 0) (2 ^ 32 - 1))
      (min (c.variant.rows * max c.pixelSize.toInt 0) (2 ^ 32 - 1)) := by
  intro m
  refine ⟨c.displaySize.1, c.displaySize.2, ?_, ?_, ?_⟩
  · simp [Operation.change, Manager.createDisplay]
  · rw [displaySize, toNat_clampUInt32, ← Int.ofNat_toNat]
    push_cast
    rfl
  · rw [displaySize, toNat_clampUInt32, ← Int.ofNat_toNat]
    push_cast
    rfl

theorem Config.mounts_empty {c : Config} (h : c.pixelSize.toInt ≤ 0) : c.Mounts 0 0 := by
  have hm := c.mounts_displaySize
  rw [max_eq_right h, mul_zero, mul_zero] at hm
  exact hm

theorem Config.mounts_whole {c : Config} (hpos : 0 ≤ c.pixelSize.toInt)
    (h : c.variant.columns * c.pixelSize.toInt < 2 ^ 32) :
    c.Mounts (c.variant.columns * c.pixelSize.toInt) (c.variant.rows * c.pixelSize.toInt) := by
  have hshape : (c.variant.columns : ℤ) = 2 * c.variant.rows := by
    exact_mod_cast c.variant.columns_eq_two_mul_rows
  have hrows : 0 ≤ c.variant.rows * c.pixelSize.toInt := by positivity
  have hm := c.mounts_displaySize
  rw [max_eq_left hpos] at hm
  rw [hshape, mul_assoc] at hm h ⊢
  rwa [min_eq_left (by omega), min_eq_left (by omega)] at hm

theorem Config.mounts_stopped {c : Config} (h : 2 ^ 32 ≤ c.variant.columns * c.pixelSize.toInt) :
    c.Mounts (2 ^ 32 - 1) (min (c.variant.rows * c.pixelSize.toInt) (2 ^ 32 - 1)) := by
  have hpos : 0 ≤ c.pixelSize.toInt := by
    by_contra hneg
    have hle : c.variant.columns * c.pixelSize.toInt ≤ 0 :=
      mul_nonpos_of_nonneg_of_nonpos (Int.natCast_nonneg _) (not_le.mp hneg).le
    omega
  have hm := c.mounts_displaySize
  rw [max_eq_left hpos, min_eq_right (by omega)] at hm
  exact hm

/-- The sizes of a configuration that was resolved at a width. -/
structure Sized (w : Binary64) (c : Config) : Prop where
  logical : c.variant.columns = 64 ∨ c.variant.columns = 128
  shape : c.variant.columns = 2 * c.variant.rows
  /-- In range nothing is cut off: the pixel size is the greatest with which the display fits. -/
  fits : ∀ q, w.toRat? = some q → 0 ≤ q → q < 2 ^ 32 →
    c.pixelSize.toInt = ⌊q / c.variant.columns⌋ ∧
    c.Mounts (c.variant.columns * c.pixelSize.toInt) (c.variant.rows * c.pixelSize.toInt) ∧
    c.variant.columns * c.pixelSize.toInt ≤ q ∧
    q < c.variant.columns * c.pixelSize.toInt + c.variant.columns
  /-- Minus infinity is among the negative widths. -/
  empty : w = .nan ∨ w = .infinite true ∨ (∃ q, w.toRat? = some q ∧ q < 0) → c.Mounts 0 0
  stopped : w = .infinite false ∨ (∃ q, w.toRat? = some q ∧ 2 ^ 32 ≤ q) →
    c.Mounts (2 ^ 32 - 1) (min (c.variant.rows * c.pixelSize.toInt) (2 ^ 32 - 1))
  monotone : ∀ w', w'.IsCanonical → w.Le w' → c.pixelSize ≤ pixelSize w' c.variant

section Law

variable {w : Binary64} {q : ℚ} (v : Variant)

theorem columns_mul_floor (q : ℚ) :
    (v.columns : ℚ) * ⌊q / v.columns⌋ ≤ q ∧ q < v.columns * ⌊q / v.columns⌋ + v.columns := by
  have hcolumns : (0 : ℚ) < v.columns := by cases v <;> norm_num [Variant.columns_eq]
  constructor
  · rw [← le_div_iff₀' hcolumns]
    exact Int.floor_le _
  · rw [← mul_add_one, ← div_lt_iff₀' hcolumns]
    exact Int.lt_floor_add_one _

theorem columns_mul_floor_le (h : 2 ^ 32 ≤ q) : 2 ^ 32 ≤ v.columns * ⌊q / v.columns⌋ := by
  rcases v.columns_cases with hv | hv <;> rw [hv]
  · have hf : 2 ^ 26 ≤ ⌊q / (64 : ℕ)⌋ := Int.le_floor.mpr (by push_cast; linarith)
    push_cast at hf ⊢
    omega
  · have hf : 2 ^ 25 ≤ ⌊q / (128 : ℕ)⌋ := Int.le_floor.mpr (by push_cast; linarith)
    push_cast at hf ⊢
    omega

end Law

theorem sized_of_resolve {p : Parameters} {w : Binary64} {o : Options} {c : Config}
    (hw : w.IsCanonical) (h : p.resolve w o = .ok c) : Sized w c := by
  have hc := holds_of_resolve h
  have hp : c.pixelSize = pixelSize w c.variant := by rw [hc.pixelSize, hc.variant]
  have hmax := Int32.toInt_maxValue
  refine ⟨c.variant.columns_cases, c.variant.columns_eq_two_mul_rows, ?_, ?_, ?_, ?_⟩
  · intro q hq hpos hlt
    obtain ⟨hle, hnext⟩ := columns_mul_floor c.variant q
    have hfloor : 0 ≤ ⌊q / c.variant.columns⌋ :=
      Int.floor_nonneg.mpr (div_nonneg hpos c.variant.columns.cast_nonneg)
    have hin : c.variant.columns * ⌊q / c.variant.columns⌋ < 2 ^ 32 := by
      exact_mod_cast hle.trans_lt hlt
    have hsize : c.pixelSize.toInt = ⌊q / c.variant.columns⌋ := by
      rw [hp, pixelSize_of_nonneg _ hw hq hpos, min_eq_left]
      rcases c.variant.columns_cases with hv | hv <;> rw [hv] at hin hfloor ⊢ <;> omega
    rw [← hsize] at hle hnext hin hfloor
    exact ⟨hsize, Config.mounts_whole hfloor hin, hle, hnext⟩
  · rintro (rfl | rfl | ⟨q, hq, hneg⟩) <;> refine Config.mounts_empty ?_ <;> rw [hp]
    · exact le_rfl
    · show Int32.minValue.toInt ≤ 0
      decide
    · exact pixelSize_nonpos _ hw hq hneg
  · intro hstop
    refine Config.mounts_stopped ?_
    rw [hp]
    rcases hstop with rfl | ⟨q, hq, hle⟩
    · show 2 ^ 32 ≤ (c.variant.columns : ℤ) * Int32.maxValue.toInt
      rcases c.variant.columns_cases with hv | hv <;> rw [hv] <;> decide
    · have hfloor := columns_mul_floor_le c.variant hle
      rw [pixelSize_of_nonneg _ hw hq (by linarith)]
      rcases c.variant.columns_cases with hv | hv <;> rw [hv] at hfloor ⊢ <;> omega
  · intro w' hw' hle
    rw [hp]
    exact Binary64.floor_scaleDown_mono _ hw hw' hle

/-- The last width but one half before `2 ^ 32`. -/
def Sample.wide : Binary64 := .ofRatio false (2 ^ 33 - 1) 2

theorem Sample.wide_canonical : Sample.wide.IsCanonical :=
  Binary64.ofRatio_canonical _ _ two_ne_zero

def Sample.wideConfig : Config :=
  { program := "PONG"
    path := "roms/PONG"
    speed := 10
    pixelSize := 33554431
    foreground := "1"
    background := "0"
    variant := .superChip }

theorem Sample.wide_resolved :
    Sample.wideConfig.parameters.resolve Sample.wide
      { Options.default with variant := .superChip } = .ok Sample.wideConfig := rfl

theorem sized_of_wide :
    Sample.wide.IsCanonical ∧
      Sample.wideConfig.parameters.resolve Sample.wide
        { Options.default with variant := .superChip } = .ok Sample.wideConfig ∧
      Sized Sample.wide Sample.wideConfig :=
  ⟨Sample.wide_canonical, Sample.wide_resolved,
    sized_of_resolve Sample.wide_canonical Sample.wide_resolved⟩

end Chip8Frame.Boot
