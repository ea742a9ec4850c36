import Chip8Frame.Decode

/-!
The four parameters of a boot as they arrive, each possibly absent, and their two carriers: data
attributes of the hosting frame and a posted message.
-/

namespace Chip8Frame

/-- Version of the contract with guests and controlling pages: exit codes, argument positions,
field and attribute names. -/
def protocolVersion : Nat := 1

namespace Boot

structure Parameters where
  program : Option String
  speed : Option String
  foreground : Option String
  background : Option String
  deriving DecidableEq, Repr, Inhabited

inductive Carrier where
  | attributes
  | message
  deriving DecidableEq, Repr

/-- A boot request as it arrived, kept so that a restart can resolve it again. -/
structure Request where
  carrier : Carrier
  parameters : Parameters
  deriving DecidableEq, Repr

namespace Parameters

def absent : Parameters := ⟨none, none, none, none⟩

def programAttribute : String := "data-pgm-name"
def speedAttribute : String := "data-speed"
def foregroundAttribute : String := "data-fgcolour"
def backgroundAttribute : String := "data-bgcolour"

def attributeNames : List String :=
  [programAttribute, speedAttribute, foregroundAttribute, backgroundAttribute]

def toAttributes (p : Parameters) : List (String × Option String) :=
  [(programAttribute, p.program), (speedAttribute, p.speed),
    (foregroundAttribute, p.foreground), (backgroundAttribute, p.background)]

def ofAttributes (lookup : String → Option String) : Parameters :=
  { program := lookup programAttribute
    speed := lookup speedAttribute
    foreground := lookup foregroundAttribute
    background := lookup backgroundAttribute }

/-- A frame without a program attribute was not asked to run anything. -/
def requestsBoot (p : Parameters) : Bool := p.program.isSome

def programKey : String := "programName"
def speedKey : String := "speed"
def foregroundKey : String := "fgColour"
def backgroundKey : String := "bgColour"

def toJson (p : Parameters) : Json :=
  Json.ofMembers
    [(programKey, Json.ofOption .string p.program), (speedKey, Json.ofOption .string p.speed),
      (foregroundKey, Json.ofOption .string p.foreground),
      (backgroundKey, Json.ofOption .string p.background)]

/-- The fields of a message in the order of its array form. -/
def fields : List (String × (Json → Parameters → Except Decode.Error Parameters)) :=
  [(programKey, fun v p => do return { p with program := ← Decode.string? v }),
    (speedKey, fun v p => do return { p with speed := ← Decode.string? v }),
    (foregroundKey, fun v p => do return { p with foreground := ← Decode.string? v }),
    (backgroundKey, fun v p => do return { p with background := ← Decode.string? v })]

def ofJson : Json → Except Decode.Error Parameters :=
  Decode.record "struct BootMessage" fields absent

end Parameters

end Boot

end Chip8Frame
