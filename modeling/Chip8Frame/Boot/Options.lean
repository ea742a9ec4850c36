import Chip8Frame.Boot.Parameters
import Chip8Frame.Log.Level

/-!
Deployment options of a hosting context: where programs and the guest module lie, which display
the guest has, the version on the boot banner and how much is logged.
-/

namespace Chip8Frame.Boot

/-- The emulated display. Its columns are a power of two and its rows half of them. -/
inductive Variant where
  | chip8
  | superChip
  deriving DecidableEq, Repr, Inhabited

namespace Variant

def columnsExponent : Variant → Nat
  | chip8 => 6
  | superChip => 7

def columns (v : Variant) : Nat := Nat.pow 2 v.columnsExponent
def rows (v : Variant) : Nat := Nat.pow 2 (v.columnsExponent - 1)

def key : Variant → String
  | chip8 => "chip8"
  | superChip => "super-chip"

def name : Variant → String
  | chip8 => "Chip8"
  | superChip => "SuperChip"

def keys : List String := [chip8.key, superChip.key]

def ofKey? (s : String) : Option Variant :=
  if s = chip8.key then some chip8 else if s = superChip.key then some superChip else none

def ofKey (s : String) : Except Decode.Error Variant :=
  match ofKey? s with
  | some v => .ok v
  | none => .error (.unknownVariant s keys)

/-- A name, or an object with that name as its only member and null as the value. -/
def ofJson : Json → Except Decode.Error Variant
  | .string s => ofKey s
  | .object [(s, v)] => do
      let variant ← ofKey s
      match v with
      | .null => return variant
      | v => throw (.wrongType (.ofJson v) "unit")
  | .object _ => .error (.wrongValue .map "map with a single key")
  | v => .error (.wrongType (.ofJson v) "string or map")

end Variant

structure Options where
  resourceRoot : String
  moduleUrl : String
  variant : Variant
  bannerVersion : String
  logLevel : String
  deriving DecidableEq, Repr, Inhabited

namespace Options

def default : Options :=
  { resourceRoot := "roms/"
    moduleUrl := "chip8.wasm"
    variant := .chip8
    bannerVersion := "1.0.0"
    logLevel := "info" }

def programPath (o : Options) (program : String) : String := o.resourceRoot ++ program

/-- A level that cannot be read means the informational one. -/
def maxLevel (o : Options) : Log.Threshold :=
  (Log.Threshold.read? (Text.trim o.logLevel)).getD .info

def resourceRootKey : String := "resourceRoot"
def moduleUrlKey : String := "moduleUrl"
def variantKey : String := "variant"
def bannerVersionKey : String := "bannerVersion"
def logLevelKey : String := "logLevel"

def fields : List (String × (Json → Options → Except Decode.Error Options)) :=
  [(resourceRootKey, fun v o => do return { o with resourceRoot := ← Decode.string v }),
    (moduleUrlKey, fun v o => do return { o with moduleUrl := ← Decode.string v }),
    (variantKey, fun v o => do return { o with variant := ← Variant.ofJson v }),
    (bannerVersionKey, fun v o => do return { o with bannerVersion := ← Decode.string v }),
    (logLevelKey, fun v o => do return { o with logLevel := ← Decode.string v })]

def ofJson : Json → Except Decode.Error Options :=
  Decode.record "struct BridgeOptions" fields default

end Options

end Chip8Frame.Boot
