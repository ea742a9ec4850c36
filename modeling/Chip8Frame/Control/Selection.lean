import Chip8Frame.Boot.Config

/-!
What the operator selects on the controlling page and how it becomes boot parameters. A theme
token holds two colours, cut at its first comma or, without a comma, at its first colon. Parameters
are delivered by data attributes of the frame, which is then recreated, or by a message posted to
the loaded frame. Attributes are the default, so a boot sent while a guest runs is not turned away.
-/

namespace Chip8Frame.Control

abbrev Transport := Boot.Carrier

namespace Transport

def default : Transport := .attributes

def name : Transport → String
  | .attributes => "Attributes"
  | .message => "Message"

/-- Names are trimmed and compared in lower case. -/
def read (text : String) : Except String Transport :=
  let name := Text.lower (Text.trim text)
  if name = "attributes" ∨ name = "attribute" then .ok .attributes
  else if name = "message" ∨ name = "postmessage" then .ok .message
  else .error ("unknown transport " ++ Text.quoted name)

end Transport

structure Theme where
  foreground : String
  background : String
  deriving DecidableEq, Repr

inductive Error where
  | invalidTheme (token : String)
  | nothingToRestart
  | frame (reason : String)
  deriving DecidableEq, Repr

def Error.message : Error → String
  | invalidTheme token => "theme " ++ Text.quoted token ++ " is not a " ++
      Decode.inTicks "foreground,background" ++ " pair"
  | nothingToRestart => "nothing to restart: no boot has been sent yet"
  | frame reason => "hosting frame rejected the command: " ++ reason

def cut? (separator : Char) : List Char → Option (List Char × List Char)
  | [] => none
  | c :: cs =>
      if c = separator then some ([], cs)
      else (cut? separator cs).map fun (a, b) => (c :: a, b)

def Theme.read (token : String) : Except Error Theme :=
  let cs := token.toList
  match (cut? ',' cs).or (cut? ':' cs) with
  | none => .error (.invalidTheme token)
  | some (a, b) =>
      let foreground := String.ofList (Text.strip a)
      let background := String.ofList (Text.strip b)
      if foreground = "" ∨ background = "" then .error (.invalidTheme token)
      else .ok { foreground, background }

structure Selection where
  program : String
  speed : String
  theme : String
  deriving DecidableEq, Repr

def Selection.parameters (s : Selection) : Except Error Boot.Parameters := do
  let theme ← Theme.read s.theme
  return {
    program := some s.program
    speed := some s.speed
    foreground := some theme.foreground
    background := some theme.background }

end Chip8Frame.Control
