import Chip8Frame.Numeric.Binary64
import Chip8Frame.Text.Basic

/-!
Decimal text of binary floating-point numbers, written and read. The digits written are the fewest
that read back as the same number, and of those the nearest to it; a layout then places the point.
-/

namespace Chip8Frame.Decimal

open Binary64 (leastExponent)

/-- The reals that round to a finite positive number, as fractions over one denominator. An end
belongs to the interval exactly when the mantissa is even. -/
structure Interval where
  low : Nat
  value : Nat
  high : Nat
  denominator : Nat
  closed : Bool

def Interval.of (m : Nat) (e : Int) : Interval :=
  let narrow := m = Nat.pow 2 52 ∧ leastExponent < e
  let up := Nat.pow 2 e.toNat
  { low := (if narrow then 4 * m - 1 else 4 * m - 2) * up
    value := 4 * m * up
    high := (4 * m + 2) * up
    denominator := 4 * Nat.pow 2 (-e).toNat
    closed := m % 2 = 0 }

def Interval.contains (i : Interval) (num den : Nat) : Bool :=
  let x := num * i.denominator
  if i.closed then i.low * den ≤ x && x ≤ i.high * den
  else i.low * den < x && x < i.high * den

def gridPoint (digits : Nat) (scale : Int) : Nat × Nat :=
  (digits * Nat.pow 10 scale.toNat, Nat.pow 10 (-scale).toNat)

/-- The nearest of the two neighbours of the value on the grid of `10 ^ scale` that read back. -/
def Interval.onGrid (i : Interval) (scale : Int) : Option Nat :=
  let unit := gridPoint 1 scale
  let below := i.value * unit.2 / (i.denominator * unit.1)
  let lower := gridPoint below scale
  let upper := gridPoint (below + 1) scale
  let lowerHit := i.contains lower.1 lower.2
  let upperHit := i.contains upper.1 upper.2
  let toLower := i.value * lower.2 - lower.1 * i.denominator
  let toUpper := upper.1 * i.denominator - i.value * upper.2
  if lowerHit && upperHit then
    if toLower < toUpper then some below
    else if toUpper < toLower then some (below + 1)
    else some (below + below % 2)
  else if lowerHit then some below
  else if upperHit then some (below + 1)
  else none

def Interval.magnitude (i : Interval) : Nat → Int → Int
  | 0, p => p
  | fuel + 1, p =>
      let g := gridPoint 1 (p - 1)
      if i.value * g.2 < g.1 * i.denominator then i.magnitude fuel (p - 1) else p

def dropZeros : Nat → Nat → Int → Nat × Int
  | 0, d, k => (d, k)
  | fuel + 1, d, k => if d % 10 = 0 then dropZeros fuel (d / 10) (k + 1) else (d, k)

/-- Tries `count + 1` digits and then more, `fuel` times. -/
def Interval.search (i : Interval) (p : Int) : Nat → Nat → Option (Nat × Int)
  | 0, _ => none
  | fuel + 1, count =>
      let scale := p - (count + 1)
      match i.onGrid scale with
      | some d => some (dropZeros 20 d scale)
      | none => i.search p fuel (count + 1)

/-- Fewest digits `d` and scale `k` such that `d * 10 ^ k` reads back as `m * 2 ^ e`; seventeen
digits always do. -/
def shortest (m : Nat) (e : Int) : Nat × Int :=
  if m = 0 then (0, 0)
  else
    let i := Interval.of m e
    let start : Int := (Nat.toDigits 10 (i.value / i.denominator)).length + 1
    (i.search (i.magnitude 400 start) 17 0).getD (0, 0)

structure Layout where
  /-- Decimal exponents outside these bounds use exponent notation; `none` never does. -/
  positional : Option (Int × Int)
  /-- Whole numbers keep a point and one zero. -/
  keepsPoint : Bool
  signsZero : Bool
  nanText : String
  infinityText : String

def Layout.plain : Layout := ⟨none, true, true, "NaN", "inf"⟩

/-- Positional from `1e-5` up to below `1e16`, with a point there and with the sign of zero. -/
def Layout.compact : Layout := ⟨some (-5, 15), true, true, "NaN", "inf"⟩

/-- Number text of scripts: whole numbers bare, exponents from `1e21` up and below `1e-6`. -/
def Layout.script : Layout := ⟨some (-6, 20), false, false, "NaN", "Infinity"⟩

def zeros (n : Nat) : List Char := List.replicate n '0'

def positionalText (keepsPoint : Bool) (digits : List Char) (scale : Int) : List Char :=
  if 0 ≤ scale then digits ++ zeros scale.toNat ++ (if keepsPoint then ['.', '0'] else [])
  else
    let point := (digits.length : Int) + scale
    if 0 < point then digits.take point.toNat ++ '.' :: digits.drop point.toNat
    else ['0', '.'] ++ zeros (-point).toNat ++ digits

def exponentText (digits : List Char) (exponent : Int) : List Char :=
  let fraction := digits.drop 1
  digits.take 1 ++ (if fraction.isEmpty then [] else '.' :: fraction) ++
    ['e', if exponent < 0 then '-' else '+'] ++ Nat.toDigits 10 exponent.natAbs

def Layout.digitsText (l : Layout) (d : Nat) (k : Int) : List Char :=
  let digits := Nat.toDigits 10 d
  let exponent := (digits.length : Int) + k - 1
  match l.positional with
  | some (least, greatest) =>
      if d ≠ 0 ∧ (exponent < least ∨ greatest < exponent) then exponentText digits exponent
      else positionalText l.keepsPoint digits k
  | none => positionalText l.keepsPoint digits k

def Layout.render (l : Layout) : Binary64 → String
  | .nan => l.nanText
  | .infinite negative => (if negative then "-" else "") ++ l.infinityText
  | .finite negative m e =>
      let (d, k) := shortest m e
      let sign := negative && (m ≠ 0 || l.signsZero)
      (if sign then "-" else "") ++ String.ofList (l.digitsText d k)

def readExponent : List Char → Option Int
  | '-' :: ds => (Text.readDigits? ds).map fun n => -(n : Int)
  | '+' :: ds => (Text.readDigits? ds).map Int.ofNat
  | ds => (Text.readDigits? ds).map Int.ofNat

/-- An unsigned decimal: digits, a point and digits, an exponent; at least one digit in front of
the exponent, and each of the other parts may be missing. -/
def readUnsigned (negative : Bool) (cs : List Char) : Option Binary64 :=
  let whole := cs.takeWhile Char.isDigit
  let rest := cs.dropWhile Char.isDigit
  let (fraction, rest) := match rest with
    | '.' :: more => (more.takeWhile Char.isDigit, more.dropWhile Char.isDigit)
    | _ => ([], rest)
  if whole.isEmpty && fraction.isEmpty then none
  else
    let number (exponent : Int) :=
      Binary64.ofDecimal negative (Text.digitsValue (whole ++ fraction)) (exponent - fraction.length)
    match rest with
    | [] => some (number 0)
    | c :: more => if c = 'e' ∨ c = 'E' then (readExponent more).map number else none

def readMagnitude (negative : Bool) (cs : List Char) : Option Binary64 :=
  let word := String.ofList (cs.map Char.toLower)
  if word = "inf" ∨ word = "infinity" then some (.infinite negative)
  else if word = "nan" then some .nan
  else readUnsigned negative cs

/-- Reads a signed decimal, `inf`, `infinity` or `nan`, the words in any case. -/
def read (s : String) : Option Binary64 :=
  match s.toList with
  | '-' :: cs => readMagnitude true cs
  | '+' :: cs => readMagnitude false cs
  | cs => readMagnitude false cs

end Chip8Frame.Decimal
