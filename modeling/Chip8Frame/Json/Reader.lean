import Chip8Frame.Json.Basic
import Chip8Frame.Numeric.Decimal

/-!
JSON text read into a value. A number without fraction and exponent that fits a signed or an
unsigned word of 64 bits is whole; every other number, and negative zero, is a floating-point one.
-/

namespace Chip8Frame.Json

def skipBlanks (cs : List Char) : List Char :=
  cs.dropWhile fun c => c = ' ' || c = '\t' || c = '\n' || c = '\r'

def hexValue? (c : Char) : Option Nat :=
  if c.isDigit then some (c.toNat - '0'.toNat)
  else if 'a' ≤ c ∧ c ≤ 'f' then some (c.toNat - 'a'.toNat + 10)
  else if 'A' ≤ c ∧ c ≤ 'F' then some (c.toNat - 'A'.toNat + 10)
  else none

def unit16? (a b c d : Char) : Option Nat := do
  return ((← hexValue? a) * 16 + (← hexValue? b)) * 256 + (← hexValue? c) * 16 + (← hexValue? d)

/-- The character after a backslash and what follows it. Two escaped surrogates make one
character; a lone one is refused. -/
def readEscape : List Char → Option (Char × List Char)
  | '"' :: cs => some ('"', cs)
  | '\\' :: cs => some ('\\', cs)
  | '/' :: cs => some ('/', cs)
  | 'b' :: cs => some ('\x08', cs)
  | 'f' :: cs => some ('\x0c', cs)
  | 'n' :: cs => some ('\n', cs)
  | 'r' :: cs => some ('\r', cs)
  | 't' :: cs => some ('\t', cs)
  | 'u' :: a :: b :: c :: d :: cs => do
      let n ← unit16? a b c d
      if 0xD800 ≤ n ∧ n < 0xDC00 then
        match cs with
        | '\\' :: 'u' :: a' :: b' :: c' :: d' :: rest => do
            let low ← unit16? a' b' c' d'
            if 0xDC00 ≤ low ∧ low < 0xE000 then
              some (Char.ofNat (0x10000 + (n - 0xD800) * 0x400 + (low - 0xDC00)), rest)
            else none
        | _ => none
      else if 0xDC00 ≤ n ∧ n < 0xE000 then none
      else some (Char.ofNat n, cs)
  | _ => none

/-- The rest of a string after its opening quote; `out` holds what was read, last character
first. -/
def readString : Nat → List Char → List Char → Option (String × List Char)
  | 0, _, _ => none
  | fuel + 1, out, cs =>
      match cs with
      | [] => none
      | '"' :: rest => some (String.ofList out.reverse, rest)
      | '\\' :: rest => do
          let (c, rest) ← readEscape rest
          readString fuel (c :: out) rest
      | c :: rest => if c.toNat < 0x20 then none else readString fuel (c :: out) rest

def isNumberChar (c : Char) : Bool :=
  c.isDigit || c = '-' || c = '+' || c = '.' || c = 'e' || c = 'E'

def ofNumberText (text : List Char) : Option Json :=
  let negative := text.head? = some '-'
  let digits := if negative then text.drop 1 else text
  if !digits.isEmpty && digits.all Char.isDigit then
    let n := Text.digitsValue digits
    if negative then
      if n = 0 ∨ Nat.pow 2 63 < n then some (.float (Binary64.ofDecimal true n 0))
      else some (.integer (-(n : Int)))
    else if n < UInt64.size then some (.integer n)
    else some (.float (Binary64.ofDecimal false n 0))
  else (Decimal.readUnsigned negative digits).map .float

def readNumber (cs : List Char) : Option (Json × List Char) :=
  (ofNumberText (cs.takeWhile isNumberChar)).map fun v => (v, cs.dropWhile isNumberChar)

mutual

def readValue : Nat → List Char → Option (Json × List Char)
  | 0, _ => none
  | fuel + 1, cs =>
      match skipBlanks cs with
      | 'n' :: 'u' :: 'l' :: 'l' :: rest => some (.null, rest)
      | 't' :: 'r' :: 'u' :: 'e' :: rest => some (.bool true, rest)
      | 'f' :: 'a' :: 'l' :: 's' :: 'e' :: rest => some (.bool false, rest)
      | '"' :: rest => do
          let (s, rest) ← readString (rest.length + 1) [] rest
          return (.string s, rest)
      | '[' :: rest =>
          match skipBlanks rest with
          | ']' :: rest => some (.array [], rest)
          | rest => do
              let (items, rest) ← readItems fuel rest
              return (.array items, rest)
      | c :: rest =>
          if c = '\x7b' then
            match skipBlanks rest with
            | [] => none
            | d :: more =>
                if d = '\x7d' then some (.object [], more)
                else do
                  let (members, rest) ← readMembers fuel (d :: more)
                  return (ofMembers members, rest)
          else readNumber (c :: rest)
      | [] => none

def readItems : Nat → List Char → Option (List Json × List Char)
  | 0, _ => none
  | fuel + 1, cs => do
      let (v, rest) ← readValue fuel cs
      match skipBlanks rest with
      | ',' :: rest =>
          let (vs, rest) ← readItems fuel rest
          return (v :: vs, rest)
      | ']' :: rest => return ([v], rest)
      | _ => none

def readMembers : Nat → List Char → Option (List (String × Json) × List Char)
  | 0, _ => none
  | fuel + 1, cs =>
      match skipBlanks cs with
      | '"' :: rest => do
          let (name, rest) ← readString (rest.length + 1) [] rest
          match skipBlanks rest with
          | ':' :: rest => do
              let (v, rest) ← readValue fuel rest
              match skipBlanks rest with
              | ',' :: rest =>
                  let (ms, rest) ← readMembers fuel rest
                  return ((name, v) :: ms, rest)
              | c :: rest => if c = '\x7d' then return ([(name, v)], rest) else none
              | [] => none
          | _ => none
      | _ => none

end

/-- A whole text as one value. Every value takes at least one character, so the length of the
text bounds the depth of the reading. -/
def parse (text : String) : Option Json :=
  let cs := text.toList
  match readValue (2 * cs.length + 2) cs with
  | some (v, rest) => if (skipBlanks rest).isEmpty then some v else none
  | none => none

end Chip8Frame.Json
