import Chip8Frame.Json.Basic
import Chip8Frame.Numeric.Decimal

/-!
JSON text without blanks. Inside strings the quote, the backslash and the control characters are
escaped and nothing else is.
-/

namespace Chip8Frame.Json

def hexDigit (n : Nat) : Char := Nat.digitChar (n % 16)

def stringChar (c : Char) : List Char :=
  if c = '"' then ['\\', '"']
  else if c = '\\' then ['\\', '\\']
  else if c = '\n' then ['\\', 'n']
  else if c = '\r' then ['\\', 'r']
  else if c = '\t' then ['\\', 't']
  else if c = '\x08' then ['\\', 'b']
  else if c = '\x0c' then ['\\', 'f']
  else if c.toNat < 0x20 then ['\\', 'u', '0', '0', hexDigit (c.toNat / 16), hexDigit c.toNat]
  else [c]

def stringText (s : String) : String :=
  String.ofList ('"' :: s.toList.flatMap stringChar ++ ['"'])

def opening : String := "\x7b"
def closing : String := "\x7d"

mutual

def render : Json → String
  | null => "null"
  | bool b => if b then "true" else "false"
  | integer n => toString n
  | float x => Decimal.Layout.compact.render x
  | string s => stringText s
  | array items => "[" ++ ",".intercalate (renderItems items) ++ "]"
  | object members => opening ++ ",".intercalate (renderMembers members) ++ closing

def renderItems : List Json → List String
  | [] => []
  | v :: vs => render v :: renderItems vs

def renderMembers : List (String × Json) → List String
  | [] => []
  | (name, v) :: ms => (stringText name ++ ":" ++ render v) :: renderMembers ms

end

end Chip8Frame.Json
