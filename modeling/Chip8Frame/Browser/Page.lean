import Chip8Frame.Browser.Decode
import Chip8Frame.Browser.Realm
import Chip8Frame.Control.Controller

/-!
The controlling page, with the hosting frame as one of its iframes. The page's controls hold the
operator's selection, and its commands go to the hosting frame. A command that fails throws.
-/

namespace Chip8Frame.Browser

/-- A realm seen through one of its iframes. -/
structure FrameHandle where
  realm : Realm
  frame : Nat

namespace FrameHandle

def attempt (h : FrameHandle) (call : Browsing Unit) : Except String Unit × FrameHandle :=
  match call h.realm with
  | (.ok (), realm) => (.ok (), { h with realm })
  | (.error v, realm) => (.error v.describe, { h with realm })

def attemptInside (h : FrameHandle) (call : Browsing Unit) : Except String Unit × FrameHandle :=
  if ((h.realm.node? h.frame).map Node.hasContentWindow).getD false then h.attempt call
  else (.error "frame has no content window", h)

def blurActive (r : Realm) : Realm :=
  match r.active.bind r.node? with
  | some n =>
      if n.isFocusable then
        match Browsing.blur n.id r with
        | (.ok (), r) => r
        | (.error v, r) => r.report (.blurFailed v.describe)
      else r
  | none => r

instance : Control.HostFrame FrameHandle where
  note n h := { h with realm := h.realm.report n }
  blur h := { h with realm := blurActive h.realm }
  perform call h :=
    match call with
    | .setAttribute name value => h.attempt (Browsing.setAttribute h.frame name value)
    | .removeAttribute name => h.attempt (Browsing.removeAttribute h.frame name)
    | .post p => h.attemptInside (Browsing.post p "*")
    | .recreate => h.attemptInside Browsing.reload

end FrameHandle

structure Page where
  controller : Control.Controller
  options : PageOptions
  handle : FrameHandle

namespace Page

def find (options : Value) : Browsing (PageOptions × Control.Transport × Nat) := do
  let o ← match options.pageOptions with
    | .ok o => pure o
    | .error e => throw (EntryError.options (Value.decodeErrorText e)).thrown
  let transport ← match o.transport with
    | none => pure Control.Transport.default
    | some name => match Control.Transport.read name with
        | .ok t => pure t
        | .error reason => throw (EntryError.options reason).thrown
  let r ← get
  if !(r.hasWindow && r.hasDocument) then throw EntryError.noWindow.thrown
  match ← Browsing.query o.frame with
  | none => throw (EntryError.missing o.frame).thrown
  | some n =>
      if n.isFrame then return (o, transport, n.id)
      else throw (EntryError.notAFrame o.frame).thrown

/-- The controller of a page; what the construction throws is a failure. -/
def open? (options : Value) (r : Realm) : Except Value Page :=
  match find options (r.openConsole .info) with
  | (.ok (options, transport, frame), realm) =>
      .ok { controller := .new transport, options, handle := { realm, frame } }
  | (.error v, _) => .error v

def controlValue (selector : String) (r : Realm) : Except EntryError String × Realm :=
  match Browsing.query selector r with
  | (.error v, r) => (.error (.script v), r)
  | (.ok none, r) => (.error (.missing selector), r)
  | (.ok (some n), r) =>
      if n.isControl then (.ok n.value, r) else (.error (.notAControl selector), r)

def selection (o : PageOptions) (r : Realm) : Except EntryError Control.Selection × Realm :=
  match controlValue o.program r with
  | (.error e, r) => (.error e, r)
  | (.ok program, r) =>
      match controlValue o.speed r with
      | (.error e, r) => (.error e, r)
      | (.ok speed, r) =>
          match controlValue o.theme r with
          | (.error e, r) => (.error e, r)
          | (.ok theme, r) => (.ok { program, speed, theme }, r)

def conclude (p : Page) :
    Except Control.Error Unit × Control.Controller × FrameHandle → Except Value Unit × Page
  | (result, controller, handle) =>
      (result.mapError fun e => (EntryError.control e).thrown, { p with controller, handle })

def run (p : Page) : Except Value Unit × Page :=
  let (chosen, realm) := selection p.options p.handle.realm
  let handle := { p.handle with realm }
  match chosen with
  | .error e => (.error e.thrown, { p with handle })
  | .ok s => p.conclude (p.controller.sendBoot s handle)

def restart (p : Page) : Except Value Unit × Page := p.conclude (p.controller.restart p.handle)

def reset (p : Page) : Except Value Unit × Page := p.conclude (p.controller.hardReset p.handle)

end Page

end Chip8Frame.Browser
