import Chip8Frame.Numeric.Binary64

/-!
JSON values. Whole numbers within 64 bits are kept apart from all other numbers, since a decoder
names the two differently when it refuses them.
-/

namespace Chip8Frame

/-- The members of an object are in increasing order of their names, each name once. -/
inductive Json where
  | null
  | bool (value : Bool)
  | integer (value : Int)
  | float (value : Binary64)
  | string (value : String)
  | array (items : List Json)
  | object (members : List (String × Json))
  deriving Inhabited

namespace Json

/-- Sets a member, keeping the order; a repeated name takes the later value. -/
def setMember (name : String) (value : Json) : List (String × Json) → List (String × Json)
  | [] => [(name, value)]
  | (n, v) :: rest =>
      if name = n then (name, value) :: rest
      else if name < n then (name, value) :: (n, v) :: rest
      else (n, v) :: setMember name value rest

def ofMembers (members : List (String × Json)) : Json :=
  .object (members.foldl (fun ms m => setMember m.1 m.2 ms) [])

def member? (name : String) : Json → Option Json
  | object members => (members.find? fun m => m.1 = name).map (·.2)
  | _ => none

def string? : Json → Option String
  | string s => some s
  | _ => none

def bool? : Json → Option Bool
  | bool b => some b
  | _ => none

def integer? : Json → Option Int
  | integer n => some n
  | _ => none

def items? : Json → Option (List Json)
  | array items => some items
  | _ => none

def number? : Json → Option Binary64
  | integer n => some (Binary64.ofInt n)
  | float x => some x
  | _ => none

def ofOption (encode : α → Json) : Option α → Json
  | some a => encode a
  | none => null

end Json

end Chip8Frame
