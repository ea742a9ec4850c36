import Chip8Frame.Boot.Options
import Chip8Frame.Browser.Value
import Chip8Frame.Control.Selection

/-!
Boot messages, bridge options and page options read from script values. Missing options are the
defaults.
-/

namespace Chip8Frame.Browser

open Boot (Parameters Options Variant)

def Value.parameters : Value → Except Decode.Error Parameters :=
  Value.record "struct BootMessage"
    [(Parameters.programKey, fun v p => do return { p with program := ← v.text? }),
      (Parameters.speedKey, fun v p => do return { p with speed := ← v.text? }),
      (Parameters.foregroundKey, fun v p => do return { p with foreground := ← v.text? }),
      (Parameters.backgroundKey, fun v p => do return { p with background := ← v.text? })]
    Parameters.absent

/-- A name, or one property with that name and nothing as its value. -/
def Value.variant (v : Value) : Except Decode.Error Variant :=
  match v with
  | .string s => Variant.ofKey s
  | v =>
      match v.entries? with
      | some [(name, content)] => do
          let variant ← Variant.ofKey name
          if content.isNullish then return variant
          else throw (.wrongType content.found "unit")
      | some entries => .error (.wrongLength entries.length "1")
      | none => .error (.wrongType v.found "enum DisplayVariant")

def Value.bridgeOptions (v : Value) : Except Decode.Error Options :=
  if v.isNullish then .ok Options.default
  else
    Value.record "struct BridgeOptions"
      [(Options.resourceRootKey, fun v o => do return { o with resourceRoot := ← v.text }),
        (Options.moduleUrlKey, fun v o => do return { o with moduleUrl := ← v.text }),
        (Options.variantKey, fun v o => do return { o with variant := ← v.variant }),
        (Options.bannerVersionKey, fun v o => do return { o with bannerVersion := ← v.text }),
        (Options.logLevelKey, fun v o => do return { o with logLevel := ← v.text })]
      Options.default v

structure PageOptions where
  frame : String
  program : String
  speed : String
  theme : String
  transport : Option String
  deriving DecidableEq, Repr

def PageOptions.default : PageOptions :=
  { frame := "#emulator", program := "#program", speed := "#speed", theme := "#theme"
    transport := none }

def Value.pageOptions (v : Value) : Except Decode.Error PageOptions :=
  if v.isNullish then .ok PageOptions.default
  else
    Value.record "struct PageOptions"
      [("frame", fun v o => do return { o with frame := ← v.text }),
        ("program", fun v o => do return { o with program := ← v.text }),
        ("speed", fun v o => do return { o with speed := ← v.text }),
        ("theme", fun v o => do return { o with theme := ← v.text }),
        ("transport", fun v o => do return { o with transport := ← v.text? })]
      PageOptions.default v

/-! Errors of the entry points. A script receives one as an error object with its message, or the
very value that a browser call threw. -/

inductive EntryError where
  | noWindow
  | missing (what : String)
  | notAFrame (selector : String)
  | notAControl (selector : String)
  | options (reason : String)
  | alreadyInstalled
  | notInstalled
  | control (error : Control.Error)
  | script (thrown : Value)

def EntryError.message : EntryError → String
  | noWindow => "no window in this context"
  | missing what => what ++ " not found in the document"
  | notAFrame selector => selector ++ " is not an iframe"
  | notAControl selector => selector ++ " is neither a select nor an input control"
  | options reason => "invalid options: " ++ reason
  | alreadyInstalled => "hosting context is already running a bridge"
  | notInstalled => "hosting context has no bridge installed"
  | control e => e.message
  | script v => "javascript error: " ++ v.describe

def EntryError.thrown (e : EntryError) : Value := .error e.message

end Chip8Frame.Browser
