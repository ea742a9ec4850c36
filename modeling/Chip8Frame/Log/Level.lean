import Chip8Frame.Text.Basic

/-!
Severity levels, and the threshold up to which events are let through.
-/

namespace Chip8Frame.Log

inductive Level where
  | error
  | warn
  | info
  | debug
  | trace
  deriving DecidableEq, Repr

def Level.rank : Level → Nat
  | error => 1
  | warn => 2
  | info => 3
  | debug => 4
  | trace => 5

def Level.name : Level → String
  | error => "ERROR"
  | warn => "WARN"
  | info => "INFO"
  | debug => "DEBUG"
  | trace => "TRACE"

inductive Threshold where
  | off
  | upTo (level : Level)
  deriving DecidableEq, Repr

namespace Threshold

def info : Threshold := upTo .info

def allows : Threshold → Level → Bool
  | off, _ => false
  | upTo greatest, level => level.rank ≤ greatest.rank

def ofRank? : Nat → Option Threshold
  | 0 => some off
  | 1 => some (upTo .error)
  | 2 => some (upTo .warn)
  | 3 => some (upTo .info)
  | 4 => some (upTo .debug)
  | 5 => some (upTo .trace)
  | _ => none

def ofName? (name : String) : Option Threshold :=
  if name = "error" then some (upTo .error)
  else if name = "warn" then some (upTo .warn)
  else if name = "info" then some (upTo .info)
  else if name = "debug" then some (upTo .debug)
  else if name = "trace" then some (upTo .trace)
  else if name = "off" then some off
  else none

def name : Threshold → String
  | off => "off"
  | upTo .error => "error"
  | upTo .warn => "warn"
  | upTo .info => "info"
  | upTo .debug => "debug"
  | upTo .trace => "trace"

/-- A rank from zero to five, the empty text for errors only, or a name in any case. -/
def read? (text : String) : Option Threshold :=
  match Text.readNat? text.toList with
  | some n => ofRank? n
  | none => if text = "" then some (upTo .error) else ofName? (Text.lower text)

end Threshold

end Chip8Frame.Log
