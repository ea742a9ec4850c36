import Chip8Frame.Json.Basic
import Chip8Frame.Numeric.Decimal
import Chip8Frame.Text.Quoted

/-!
Why a decoder refuses a value: what it found, and what it expected instead.
-/

namespace Chip8Frame.Decode

inductive Found where
  | null
  | unit
  | bool (value : Bool)
  | integer (value : Int)
  /-- A floating-point number as the decoder writes it. -/
  | float (text : String)
  | string (value : String)
  | sequence
  | map
  | other (text : String)

def inTicks (s : String) : String := "\x60" ++ s ++ "\x60"

def Found.text : Found → String
  | null => "null"
  | unit => "unit value"
  | bool b => "boolean " ++ inTicks (if b then "true" else "false")
  | integer n => "integer " ++ inTicks (toString n)
  | float text => "floating point " ++ inTicks text
  | string s => "string " ++ Text.quoted s
  | sequence => "sequence"
  | map => "map"
  | other s => s

def Found.ofJson : Json → Found
  | .null => null
  | .bool b => bool b
  | .integer n => integer n
  | .float x => float (Decimal.Layout.compact.render x)
  | .string s => string s
  | .array _ => sequence
  | .object _ => map

inductive Error where
  | wrongType (found : Found) (expected : String)
  | wrongValue (found : Found) (expected : String)
  | wrongLength (length : Nat) (expected : String)
  | unknownVariant (name : String) (known : List String)

def Error.message : Error → String
  | wrongType found expected => "invalid type: " ++ found.text ++ ", expected " ++ expected
  | wrongValue found expected => "invalid value: " ++ found.text ++ ", expected " ++ expected
  | wrongLength n expected => "invalid length " ++ toString n ++ ", expected " ++ expected
  | unknownVariant name known =>
      "unknown variant " ++ inTicks name ++ ", expected " ++ " or ".intercalate (known.map inTicks)

def string : Json → Except Error String
  | .string s => .ok s
  | v => .error (.wrongType (.ofJson v) "a string")

/-- Null is an absent string. -/
def string? : Json → Except Error (Option String)
  | .null => .ok none
  | v => (string v).map some

/-- Decodes a record, given as an object or as the array of its leading fields. Members of an
object are visited in order and unknown ones ignored; `fields` sets each field by its name. -/
def record (expected : String) (fields : List (String × (Json → α → Except Error α)))
    (default : α) : Json → Except Error α
  | .object members =>
      members.foldlM
        (fun a m => match fields.lookup m.1 with
          | some set => set m.2 a
          | none => .ok a)
        default
  | .array items => do
      let a ← (fields.zip items).foldlM (fun a (f, v) => f.2 v a) default
      if fields.length < items.length then
        .error (.wrongLength items.length "fewer elements in array")
      else .ok a
  | v => .error (.wrongType (.ofJson v) expected)

end Chip8Frame.Decode
