import Chip8Frame.Control.Selection
import Chip8Frame.Log.Notice

/-!
The controlling page's side: boot commands sent to the hosting frame over one transport. The frame
is anything that answers frame calls; a command stops at the first call that fails.
-/

namespace Chip8Frame.Control

inductive FrameCall where
  | setAttribute (name value : String)
  | removeAttribute (name : String)
  | post (parameters : Boot.Parameters)
  /-- Throws the hosting context away and loads a fresh one. -/
  | recreate
  deriving DecidableEq, Repr

/-- A hosting frame as a controller reaches it. A call that fails gives its reason. -/
class HostFrame (φ : Type) where
  note : Log.Notice → φ → φ
  /-- Drops keyboard focus from page controls, so that keys reach the guest. -/
  blur : φ → φ
  perform : FrameCall → φ → Except String Unit × φ

def deliveryCalls (transport : Transport) (p : Boot.Parameters) : List FrameCall :=
  match transport with
  | .attributes =>
      p.toAttributes.map (fun (name, value) => match value with
        | some v => .setAttribute name v
        | none => .removeAttribute name) ++ [.recreate]
  | .message => [.post p]

def performAll {φ : Type} [HostFrame φ] : List FrameCall → φ → Except Error Unit × φ
  | [], f => (.ok (), f)
  | call :: calls, f =>
      match HostFrame.perform call f with
      | (.ok (), f) => performAll calls f
      | (.error reason, f) => (.error (.frame reason), f)

structure Controller where
  transport : Transport
  /-- The selection of the latest send that succeeded. -/
  last : Option Selection
  deriving DecidableEq, Repr

namespace Controller

def new (transport : Transport) : Controller := { transport, last := none }

variable {φ : Type} [HostFrame φ]

def sendBoot (c : Controller) (s : Selection) (f : φ) : Except Error Unit × Controller × φ :=
  let f := HostFrame.blur f
  match s.parameters with
  | .error e => (.error e, c, f)
  | .ok p =>
      match performAll (deliveryCalls c.transport p) f with
      | (.error e, f) => (.error e, c, f)
      | (.ok (), f) =>
          (.ok (), { c with last := some s }, HostFrame.note (.bootSent s.program c.transport) f)

def restart (c : Controller) (f : φ) : Except Error Unit × Controller × φ :=
  match c.last with
  | some s => c.sendBoot s f
  | none => (.error .nothingToRestart, c, f)

def hardReset (c : Controller) (f : φ) : Except Error Unit × Controller × φ :=
  let (result, f) := performAll [.recreate] (HostFrame.note .resetRequested f)
  (result, c, f)

end Controller

end Chip8Frame.Control
