/-!
Binary floating-point numbers of 64 bits as exact values: a finite number is a signed mantissa
times a power of two. Rounding goes to the nearest number and a tie to the even mantissa. No
hardware arithmetic is involved, so every operation can be reasoned about in the integers.
-/

namespace Chip8Frame

/-- A finite number has the value `mantissa * 2 ^ exponent`, negated if `negative`. -/
inductive Binary64 where
  | nan
  | infinite (negative : Bool)
  | finite (negative : Bool) (mantissa : Nat) (exponent : Int)
  deriving DecidableEq, Repr, Inhabited

namespace Binary64

/-- Mantissas stay below `2 ^ 53`; the exponent of zero and of subnormal numbers is the least. -/
def leastExponent : Int := -1074
def greatestExponent : Int := 971

/-- The one representation of each finite value that the functions below produce and expect. -/
def IsCanonical : Binary64 → Prop
  | finite _ m e => m < Nat.pow 2 53 ∧ leastExponent ≤ e ∧ e ≤ greatestExponent ∧
      (Nat.pow 2 52 ≤ m ∨ e = leastExponent)
  | _ => True

def zero : Binary64 := finite false 0 leastExponent

/-- The quotient rounded to the nearest natural number, a tie to the even one. -/
def roundedQuotient (num den : Nat) : Nat :=
  let q := num / den
  let r := num % den
  if 2 * r < den then q else if den < 2 * r then q + 1 else q + q % 2

/-- `num / den` in units of `2 ^ e`, as a fraction of natural numbers. -/
def inUnits (num den : Nat) (e : Int) : Nat × Nat :=
  (num * Nat.pow 2 (-e).toNat, den * Nat.pow 2 e.toNat)

def exponentOf (num den : Nat) : Int :=
  let guess : Int := (num.log2 : Int) - (den.log2 : Int) - 52
  let u := inUnits num den guess
  max leastExponent (if u.1 / u.2 < Nat.pow 2 52 then guess - 1 else guess)

/-- The number nearest to `num / den`, infinite from the middle above the greatest one on. -/
def ofRatio (negative : Bool) (num den : Nat) : Binary64 :=
  if num = 0 then finite negative 0 leastExponent
  else
    let e := exponentOf num den
    let u := inUnits num den e
    let m := roundedQuotient u.1 u.2
    let m' := if m = Nat.pow 2 53 then Nat.pow 2 52 else m
    let e' := if m = Nat.pow 2 53 then e + 1 else e
    if greatestExponent < e' then infinite negative else finite negative m' e'

/-- The number nearest to `digits * 10 ^ scale`. Scales that only reach infinity or zero are
answered without forming the power. -/
def ofDecimal (negative : Bool) (digits : Nat) (scale : Int) : Binary64 :=
  if digits = 0 then finite negative 0 leastExponent
  else
    let size : Int := (Nat.toDigits 10 digits).length + scale
    if 400 < size then infinite negative
    else if size < -400 then finite negative 0 leastExponent
    else ofRatio negative (digits * Nat.pow 10 scale.toNat) (Nat.pow 10 (-scale).toNat)

def ofInt (n : Int) : Binary64 := ofRatio (n < 0) n.natAbs 1

/-- The quotient by `2 ^ k`: exact unless it falls among the subnormal numbers, where it is
rounded. -/
def scaleDown (k : Nat) : Binary64 → Binary64
  | finite s m e =>
      if leastExponent ≤ e - k then finite s m (e - k)
      else finite s (roundedQuotient m (Nat.pow 2 (leastExponent - (e - k)).toNat)) leastExponent
  | x => x

def clampInt32 (n : Int) : Int32 :=
  if n < Int32.minValue.toInt then Int32.minValue
  else if Int32.maxValue.toInt < n then Int32.maxValue
  else Int32.ofInt n

def floorFinite (negative : Bool) (m : Nat) (e : Int) : Int :=
  let signed : Int := if negative then -(m : Int) else m
  if 0 ≤ e then signed * (Nat.pow 2 e.toNat : Nat) else signed / (Nat.pow 2 (-e).toNat : Nat)

def truncateFinite (negative : Bool) (m : Nat) (e : Int) : Int :=
  let size : Nat := if 0 ≤ e then m * Nat.pow 2 e.toNat else m / Nat.pow 2 (-e).toNat
  if negative then -(size : Int) else size

def floorInt32 : Binary64 → Int32
  | nan => 0
  | infinite negative => if negative then Int32.minValue else Int32.maxValue
  | finite s m e => clampInt32 (floorFinite s m e)

def truncateInt32 : Binary64 → Int32
  | nan => 0
  | infinite negative => if negative then Int32.minValue else Int32.maxValue
  | finite s m e => clampInt32 (truncateFinite s m e)

end Binary64

end Chip8Frame
