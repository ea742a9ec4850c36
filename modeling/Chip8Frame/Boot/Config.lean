import Chip8Frame.Boot.Options

/-!
The validated configuration of one boot, resolved from raw parameters and the width that the
hosting context has at that moment.
-/

namespace Chip8Frame.Boot

structure Config where
  program : String
  /-- The program's name behind the resource root. -/
  path : String
  speed : UInt32
  pixelSize : Int32
  foreground : String
  background : String
  variant : Variant
  deriving DecidableEq, Repr, Inhabited

inductive ConfigError where
  | missingProgram
  | missingField (name : String)
  | invalidSpeed (text : String)
  deriving DecidableEq, Repr

def ConfigError.message : ConfigError → String
  | missingProgram => "no program name supplied"
  | missingField name => "missing boot parameter " ++ Decode.inTicks name
  | invalidSpeed text => "invalid speed " ++ Text.quoted text ++ ": expected a positive integer"

/-- Display columns that fit into the width, as whole pixels a column. Not clamped to positive
sizes: the guest decides what to do with those. -/
def pixelSize (width : Binary64) (v : Variant) : Int32 :=
  (width.scaleDown v.columnsExponent).floorInt32

def filled? (text : Option String) : Option String :=
  (text.map Text.trim).filter (· ≠ "")

def required (text : Option String) (name : String) : Except ConfigError String :=
  match filled? text with
  | some s => .ok s
  | none => .error (.missingField name)

/-- A positive number below `2 ^ 32`, a plus sign and leading zeros allowed. -/
def readSpeed (text : String) : Except ConfigError UInt32 :=
  match Text.readNat? text.toList with
  | some n => if 0 < n ∧ n < UInt32.size then .ok (UInt32.ofNat n) else .error (.invalidSpeed text)
  | none => .error (.invalidSpeed text)

def Parameters.resolve (p : Parameters) (width : Binary64) (o : Options) :
    Except ConfigError Config := do
  let program ← match filled? p.program with
    | some s => .ok s
    | none => .error .missingProgram
  let speed ← readSpeed (← required p.speed Parameters.speedAttribute)
  let foreground ← required p.foreground Parameters.foregroundAttribute
  let background ← required p.background Parameters.backgroundAttribute
  return {
    program
    path := o.programPath program
    speed
    pixelSize := pixelSize width o.variant
    foreground
    background
    variant := o.variant }

structure Arguments where
  path : String
  debug : Bool
  speed : UInt32
  pixelSize : Int32
  foreground : String
  background : String
  deriving DecidableEq, Repr

namespace Arguments

def count : Nat := 6

def boolText (b : Bool) : String := if b then "true" else "false"

def toList (a : Arguments) : List String :=
  [a.path, boolText a.debug, toString a.speed.toNat, toString a.pixelSize.toInt,
    a.foreground, a.background]

end Arguments

/-- Debugging is never enabled from the host. -/
def Config.arguments (c : Config) : Arguments :=
  { path := c.path
    debug := false
    speed := c.speed
    pixelSize := c.pixelSize
    foreground := c.foreground
    background := c.background }

/-- The display of a configuration: its columns and rows times the pixel size, clamped to 32
bits; a pixel size that is not positive gives an empty display. -/
def Config.displaySize (c : Config) : UInt32 × UInt32 :=
  let scale := c.pixelSize.toInt.toNat
  (clampUInt32 (c.variant.columns * scale), clampUInt32 (c.variant.rows * scale))
where
  clampUInt32 (n : Nat) : UInt32 := UInt32.ofNat (min n (UInt32.size - 1))

end Chip8Frame.Boot
