import Chip8Frame.Log.Notice
import Chip8Frame.Text.Basic

/-!
Lines on the browser's console. An entry is written as one line of bytes into a buffer; a flush,
or the end of the writer, hands the buffered bytes to the console method of the entry's level.
-/

namespace Chip8Frame.Console

inductive Method where
  | error
  | warn
  | info
  | debug
  deriving DecidableEq, Repr

def Method.name : Method → String
  | error => "error"
  | warn => "warn"
  | info => "info"
  | debug => "debug"

def Method.ofLevel : Log.Level → Method
  | .error => error
  | .warn => warn
  | .info => info
  | .debug | .trace => debug

structure Line where
  method : Method
  text : String
  deriving DecidableEq, Repr

structure Writer where
  level : Log.Level
  buffer : List UInt8
  deriving DecidableEq, Repr

namespace Writer

def new (level : Log.Level) : Writer := { level, buffer := [] }

def write (w : Writer) (bytes : List UInt8) : Writer := { w with buffer := w.buffer ++ bytes }

/-- Bytes are decoded only here, so a character may be split over writes. -/
def flush (w : Writer) : List Line × Writer :=
  if w.buffer.isEmpty then ([], w)
  else
    ([⟨Method.ofLevel w.level, Text.trimEnd (Text.decodeLossy w.buffer)⟩],
      { w with buffer := [] })

def finish (w : Writer) : List Line := w.flush.1

end Writer

/-- Control characters that a terminal could act on are written as escapes; line breaks and tabs
are kept. -/
def guardChar (c : Char) : List Char :=
  if c = '\x1b' then ['\\', 'x', '1', 'b']
  else if c = '\x07' then ['\\', 'x', '0', '7']
  else if c = '\x08' then ['\\', 'x', '0', '8']
  else if c = '\x0c' then ['\\', 'x', '0', 'c']
  else if c = '\x7f' then ['\\', 'x', '7', 'f']
  else if 0x80 ≤ c.toNat ∧ c.toNat ≤ 0x9F then Text.codePointEscape c
  else [c]

def guarded (s : String) : String := String.ofList (s.toList.flatMap guardChar)

/-- A field named like the message shows its text alone. -/
def fieldText (f : Log.Field) : String :=
  if f.name = "message" then " " ++ guarded f.text
  else " " ++ f.name ++ "=" ++ (if f.quoted then Text.quoted f.text else f.text)

def levelText (level : Log.Level) : String :=
  String.ofList (List.replicate (5 - level.name.length) ' ') ++ level.name

def entryText (e : Log.Entry) : String :=
  levelText e.level ++ " " ++ e.source.path ++ ": " ++ guarded e.message ++
    String.join (e.fields.map fieldText) ++ "\n"

def lines (e : Log.Entry) : List Line :=
  ((Writer.new e.level).write (Text.encode (entryText e))).finish

end Chip8Frame.Console
