import Chip8Frame.Proofs.Rebuilding

/-! Whole numbers read back from the decimal text that they are written in. A negative one has a
minus sign before its digits; what is read as a word has to lie in its range. -/

namespace Chip8Frame.Text

/-- A minus sign and some digits, or a number without a minus sign. -/
def readInt? : List Char → Option Int
  | '-' :: ds => (readDigits? ds).map fun n : Nat => -(n : Int)
  | cs => (readNat? cs).map Int.ofNat

def readUInt32? (text : String) : Option UInt32 :=
  ((readNat? text.toList).filter (· < UInt32.size)).map UInt32.ofNat

def readInt32? (text : String) : Option Int32 :=
  ((readInt? text.toList).filter fun n =>
    Int32.minValue.toInt ≤ n && n ≤ Int32.maxValue.toInt).map Int32.ofInt

def isNumeralChar (c : Char) : Bool := c.isDigit || c = '-'

theorem readNat?_toString (n : Nat) : readNat? (toString n).toList = some n :=
  readNat?_eq_some.mpr (decimal_numeral n)

theorem readDigits?_toString (n : Nat) : readDigits? (toString n).toList = some n := by
  have hdigits : ∀ c ∈ (toString n).toList, c.isDigit = true :=
    fun c hc => isDigit_of_mem_decimal n hc
  have hread := readNat?_toString n
  unfold readNat? at hread
  split at hread
  · next hplus =>
    have hsign := hdigits '+' (by rw [hplus]; exact List.mem_cons_self)
    cases hsign
  · exact hread

theorem toString_negSucc (n : Nat) :
    (toString (Int.negSucc n)).toList = '-' :: (toString (n + 1)).toList := by
  show ("-" ++ toString (n + 1)).toList = _
  rw [String.toList_append]
  rfl

section Signed

variable (n : Int)

theorem isNumeralChar_of_mem_toString {c : Char} (h : c ∈ (toString n).toList) :
    isNumeralChar c = true := by
  have hdigit : ∀ m : Nat, c ∈ (toString m).toList → isNumeralChar c = true := by
    intro m hm
    rw [isNumeralChar, isDigit_of_mem_decimal m hm, Bool.true_or]
  cases n with
  | ofNat m => exact hdigit m h
  | negSucc m =>
    rw [toString_negSucc] at h
    rcases List.mem_cons.mp h with rfl | h
    · rfl
    · exact hdigit (m + 1) h

theorem readInt?_toString : readInt? (toString n).toList = some n := by
  cases n with
  | ofNat m =>
    have hread : (readNat? (toString m).toList).map Int.ofNat = some (Int.ofNat m) := by
      rw [readNat?_toString, Option.map_some]
    show readInt? (toString m).toList = _
    unfold readInt?
    split
    · next hminus =>
      have hsign := isDigit_of_mem_decimal m (c := '-') (by rw [hminus]; exact List.mem_cons_self)
      cases hsign
    · exact hread
  | negSucc m =>
    rw [toString_negSucc, readInt?, readDigits?_toString, Option.map_some]
    rfl

end Signed

theorem readUInt32?_toString (n : UInt32) : readUInt32? (toString n.toNat) = some n := by
  have hlt : n.toNat < UInt32.size := n.toNat_lt_size
  rw [readUInt32?, readNat?_toString, Option.filter_some, if_pos (by simpa using hlt),
    Option.map_some, UInt32.ofNat_toNat]

theorem readInt32?_toString (n : Int32) : readInt32? (toString n.toInt) = some n := by
  have hmin : Int32.minValue.toInt ≤ n.toInt := n.minValue_le_toInt
  have hmax : n.toInt ≤ Int32.maxValue.toInt := n.toInt_le
  have hin : (Int32.minValue.toInt ≤ n.toInt && n.toInt ≤ Int32.maxValue.toInt) = true := by
    rw [decide_eq_true hmin, decide_eq_true hmax, Bool.and_self]
  rw [readInt32?, readInt?_toString, Option.filter_some, if_pos hin, Option.map_some,
    Int32.ofInt_toInt]

end Chip8Frame.Text
