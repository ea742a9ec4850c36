/-!
Exit codes of a guest run and the diagnostic that a fault code stands for. Zero is a clean exit,
1 and 50 are a guest's own failures, and codes above one hundred are the status of a failed program
download.
-/

namespace Chip8Frame

namespace Exit

def clean : Int32 := 0
def general : Int32 := 1
def systemOther : Int32 := 50
def memoryBounds : Int32 := 51
def invalidOpcode : Int32 := 52
def outOfMemory : Int32 := 53
def networkThreshold : Int32 := 100

def isNetwork (code : Int32) : Bool := networkThreshold < code

end Exit

/-- An exit code other than the clean one. -/
def FaultCode : Type := { code : Int32 // code ≠ Exit.clean }
  deriving DecidableEq

namespace FaultCode

def value (c : FaultCode) : Int32 := c.val

def ofExit? (code : Int32) : Option FaultCode :=
  if h : code = Exit.clean then none else some ⟨code, h⟩

def text (c : FaultCode) : String := toString c.value.toInt

end FaultCode

namespace Fault

inductive Category where
  | network
  | memoryBounds
  | invalidOpcode
  | outOfMemory
  | general
  deriving DecidableEq, Repr

inductive Origin where
  | transport
  | runtime
  | unknown
  deriving DecidableEq, Repr

def Category.origin : Category → Origin
  | network => .transport
  | memoryBounds | invalidOpcode | outOfMemory => .runtime
  | general => .unknown

def Category.name : Category → String
  | network => "Network"
  | memoryBounds => "MemoryBounds"
  | invalidOpcode => "InvalidOpcode"
  | outOfMemory => "OutOfMemory"
  | general => "General"

def Origin.name : Origin → String
  | transport => "TransportFault"
  | runtime => "RuntimeFault"
  | unknown => "UnknownFault"

def categoryOf (code : Int32) : Category :=
  if Exit.isNetwork code then .network
  else if code = Exit.memoryBounds then .memoryBounds
  else if code = Exit.invalidOpcode then .invalidOpcode
  else if code = Exit.outOfMemory then .outOfMemory
  else .general

/-- Only a failed download names the program. -/
def reason (program : String) : Category → String
  | .network => "Failed to download program: " ++ program
  | .memoryBounds => "Memory address out of bounds"
  | .invalidOpcode => "Invalid Opcode"
  | .outOfMemory => "Out of memory"
  | .general => "General error"

end Fault

structure Fault where
  code : FaultCode
  category : Fault.Category
  message : String
  deriving DecidableEq

namespace Fault

def of (code : FaultCode) (program : String) : Fault :=
  let category := categoryOf code.value
  { code, category, message := reason program category }

def origin (f : Fault) : Origin := f.category.origin

def banner (f : Fault) : String :=
  "+++ Guru Meditation!\n+++ CODE: " ++ f.code.text ++ "\n+++ REASON: " ++ f.message

def text (f : Fault) : String := "guest fault " ++ f.code.text ++ ": " ++ f.message

end Fault

end Chip8Frame
