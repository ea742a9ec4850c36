import Chip8Frame.Control.Controller

/-!
A hosting frame that records what reaches it and fails the calls that a table names.
-/

namespace Chip8Frame.Control

inductive FrameEvent where
  | note (notice : Log.Notice)
  | blur
  | call (call : FrameCall)
  deriving DecidableEq

def FrameCall.key : FrameCall → String
  | setAttribute name _ => name
  | removeAttribute name => name
  | post _ => "post"
  | recreate => "recreate"

structure RecordingFrame where
  failures : List (String × String)
  events : List FrameEvent

namespace RecordingFrame

def new : RecordingFrame := { failures := [], events := [] }

def record (f : RecordingFrame) (e : FrameEvent) : RecordingFrame :=
  { f with events := f.events ++ [e] }

instance : HostFrame RecordingFrame where
  note n f := f.record (.note n)
  blur f := f.record .blur
  perform c f :=
    (match f.failures.lookup c.key with
      | some reason => .error reason
      | none => .ok (),
      f.record (.call c))

end RecordingFrame

end Chip8Frame.Control
