/-!
Text as it is read: blank characters and the trimming by them, whole numbers, and bytes in UTF-8.
Blank means the White_Space property, so a no-break space is trimmed and a zero-width space is kept.
A whole number is an optional plus sign and one or more ASCII digits. Bytes are read with the
replacement character for each longest stretch that starts a character and does not end one.
-/

namespace Chip8Frame.Text

def isBlank (c : Char) : Bool :=
  let n := c.toNat
  (0x09 ≤ n && n ≤ 0x0D) || n == 0x20 || n == 0x85 || n == 0xA0 || n == 0x1680 ||
    (0x2000 ≤ n && n ≤ 0x200A) || n == 0x2028 || n == 0x2029 || n == 0x202F ||
    n == 0x205F || n == 0x3000

def stripStart (cs : List Char) : List Char := cs.dropWhile isBlank

def stripEnd (cs : List Char) : List Char := (cs.reverse.dropWhile isBlank).reverse

def strip (cs : List Char) : List Char := stripEnd (stripStart cs)

def trim (s : String) : String := String.ofList (strip s.toList)

def trimEnd (s : String) : String := String.ofList (stripEnd s.toList)

def lower (s : String) : String := String.ofList (s.toList.map Char.toLower)

def digitsValue (ds : List Char) : Nat :=
  ds.foldl (fun n c => 10 * n + (c.toNat - '0'.toNat)) 0

def readDigits? (ds : List Char) : Option Nat :=
  if !ds.isEmpty && ds.all Char.isDigit then some (digitsValue ds) else none

def readNat? : List Char → Option Nat
  | '+' :: ds => readDigits? ds
  | ds => readDigits? ds

def replacement : Char := '\ufffd'

/-- What a first byte announces: the bits it carries, the bytes that follow it, and the range of
the first of these. Every later one lies between 0x80 and 0xBF. -/
structure Lead where
  bits : Nat
  tail : Nat
  least : Nat
  greatest : Nat

def lead? (b : Nat) : Option Lead :=
  if b < 0x80 then some ⟨b, 0, 0x80, 0xBF⟩
  else if 0xC2 ≤ b ∧ b ≤ 0xDF then some ⟨b - 0xC0, 1, 0x80, 0xBF⟩
  else if b = 0xE0 then some ⟨0, 2, 0xA0, 0xBF⟩
  else if b = 0xED then some ⟨0xD, 2, 0x80, 0x9F⟩
  else if 0xE1 ≤ b ∧ b ≤ 0xEF then some ⟨b - 0xE0, 2, 0x80, 0xBF⟩
  else if b = 0xF0 then some ⟨0, 3, 0x90, 0xBF⟩
  else if b = 0xF4 then some ⟨4, 3, 0x80, 0x8F⟩
  else if 0xF1 ≤ b ∧ b ≤ 0xF3 then some ⟨b - 0xF0, 3, 0x80, 0xBF⟩
  else none

/-- The characters that one more byte completes, and what is begun after it; `begun` is what
earlier bytes have begun. -/
def step (begun : Option Lead) (byte : UInt8) : List Char × Option Lead :=
  let b := byte.toNat
  let fresh : List Char × Option Lead :=
    match lead? b with
    | none => ([replacement], none)
    | some l => if l.tail = 0 then ([Char.ofNat l.bits], none) else ([], some l)
  match begun with
  | none => fresh
  | some l =>
      if l.least ≤ b ∧ b ≤ l.greatest then
        let bits := 64 * l.bits + (b - 0x80)
        if l.tail = 1 then ([Char.ofNat bits], none)
        else ([], some ⟨bits, l.tail - 1, 0x80, 0xBF⟩)
      else (replacement :: fresh.1, fresh.2)

def decodeFrom (begun : Option Lead) : List UInt8 → List Char
  | [] => if begun.isSome then [replacement] else []
  | b :: bs =>
      let (cs, begun) := step begun b
      cs ++ decodeFrom begun bs

def decodeLossy (bytes : List UInt8) : String := String.ofList (decodeFrom none bytes)

def encode (s : String) : List UInt8 := s.toUTF8.data.toList

end Chip8Frame.Text
