import Chip8Frame.Decode
import Chip8Frame.Json.Writer

/-!
Script values as they cross into the bridge: options, message data, and whatever a failing call
throws. Objects list their own properties in increasing order of their names.
-/

namespace Chip8Frame.Browser

inductive Value where
  | undefined
  | null
  | bool (value : Bool)
  | number (value : Binary64)
  | string (value : String)
  | array (items : List Value)
  | object (members : List (String × Value))
  | error (message : String)
  | function
  deriving Inhabited

namespace Value

def isNullish : Value → Bool
  | undefined | null => true
  | _ => false

/-- Arrays and errors are objects too; functions are not. -/
def isObject : Value → Bool
  | array _ | object _ | error _ => true
  | _ => false

def string? : Value → Option String
  | string s => some s
  | _ => none

def number? : Value → Option Binary64
  | number x => some x
  | _ => none

def member? (name : String) : Value → Option Value
  | object members => members.lookup name
  | _ => none

def numberText (x : Binary64) : String := Decimal.Layout.script.render x

mutual

/-- The JSON text of a value; undefined values and functions have none. -/
def json? : Value → Option String
  | undefined | function => none
  | null => some "null"
  | bool b => some (if b then "true" else "false")
  | number x => some (match x with
      | .finite .. => numberText x
      | _ => "null")
  | string s => some (Json.stringText s)
  | array items => some ("[" ++ ",".intercalate (itemTexts items) ++ "]")
  | object members =>
      some (Json.opening ++ ",".intercalate (memberTexts members) ++ Json.closing)
  | error _ => some (Json.opening ++ Json.closing)

def itemTexts : List Value → List String
  | [] => []
  | v :: vs => (json? v).getD "null" :: itemTexts vs

def memberTexts : List (String × Value) → List String
  | [] => []
  | (name, v) :: ms =>
      match json? v with
      | some t => (Json.stringText name ++ ":" ++ t) :: memberTexts ms
      | none => memberTexts ms

end

mutual

def debugText : Value → String
  | undefined => "undefined"
  | null => "null"
  | bool b => if b then "true" else "false"
  | number x => numberText x
  | string s => "\"" ++ s ++ "\""
  | array items => "[" ++ ", ".intercalate (debugTexts items) ++ "]"
  | object members => "Object(" ++ (json? (object members)).getD "" ++ ")"
  | error message => "Error: " ++ message
  | function => "Function"

def debugTexts : List Value → List String
  | [] => []
  | v :: vs => debugText v :: debugTexts vs

end

def inDebug (v : Value) : String := "JsValue(" ++ v.debugText ++ ")"

def describe : Value → String
  | string s => s
  | error message => message
  | v => v.inDebug

def found (v : Value) : Decode.Found :=
  match v with
  | undefined | null => .unit
  | bool b => .bool b
  | number x => .float (Decimal.Layout.plain.render x)
  | string s => .string s
  | v => .other v.inDebug

/-! Decoding a record visits its fields in their order; other properties are ignored. -/

def text (v : Value) : Except Decode.Error String :=
  match v with
  | string s => .ok s
  | v => .error (.wrongType v.found "a string")

def text? (v : Value) : Except Decode.Error (Option String) :=
  if v.isNullish then .ok none else v.text.map some

def record (expected : String) (fields : List (String × (Value → α → Except Decode.Error α)))
    (default : α) (v : Value) : Except Decode.Error α :=
  if v.isObject then
    fields.foldlM (fun a (name, set) => match v.member? name with
      | some field => set field a
      | none => .ok a) default
  else .error (.wrongType v.found expected)

/-- The own properties of an object, as names and values; an array's names are its indices. -/
def entries? : Value → Option (List (String × Value))
  | object members => some members
  | array items => some (items.zipIdx.map fun (v, i) => (toString i, v))
  | error _ => some []
  | _ => none

def decodeErrorText (e : Decode.Error) : String := "Error: " ++ e.message

end Value

end Chip8Frame.Browser
