import Chip8Frame.Browser.Decode
import Chip8Frame.Browser.DocumentSurface
import Chip8Frame.Browser.Guest
import Chip8Frame.Host.Session

/-!
The hosting frame in a browser. At most one bridge is installed in a realm. Every command is a task
that takes the bridge's lock for the whole of its run, and a command whose task finds the lock held
is turned away. Tasks run one after another, each up to its next wait.
-/

namespace Chip8Frame.Browser

open Host (Session Turn GuestError)

structure Bridge where
  session : Session
  surface : DocumentSurface
  /-- Closure of the latest exit function; a new one ends it. -/
  exitClosure : Option Nat

inductive Task where
  /-- A command that has not started. -/
  | command (command : Host.Command) (width : Binary64)
  /-- A boot that holds the lock and waits for its guest's module. -/
  | loading (guest : Nat) (url : String)
  /-- A boot that holds the lock and waits for its guest's exit. -/
  | running
  /-- Waits for the promise of a guest's run; every wait gives way once. -/
  | watching (guest : Nat) (waited : Bool)

structure Frame where
  realm : Realm
  runtime : RuntimeClass
  /-- Scripts of the guests to come. -/
  scripts : List GuestScript
  guests : List Guest
  bridge : Option Bridge
  locked : Bool
  tasks : List Task

namespace Frame

def new (realm : Realm) (runtime : RuntimeClass) (scripts : List GuestScript) : Frame :=
  { realm, runtime, scripts, guests := [], bridge := none, locked := false, tasks := [] }

def report (f : Frame) (n : Log.Notice) : Frame := { f with realm := f.realm.report n }

def record (f : Frame) (e : Event) : Frame := { f with realm := f.realm.record e }

def spawn (f : Frame) (t : Task) : Frame := { f with tasks := f.tasks ++ [t] }

/-! Geometry. -/

/-- The declared width of an iframe, or else the layout width of the element. -/
def elementWidth (n : Node) : Binary64 :=
  let declared := if n.isFrame then Decimal.read (Text.trim ((n.attribute? "width").getD ""))
    else none
  declared.getD (Binary64.ofInt n.clientWidth)

def windowWidth (r : Realm) : Binary64 :=
  match (Browsing.innerWidth r).1 with
  | .ok v => v.number?.getD .zero
  | .error _ => .zero

def currentWidth (r : Realm) : Binary64 :=
  match (Browsing.frameElement r).1 with
  | .ok (some n) => elementWidth n
  | _ => windowWidth r

/-! Events on the window. -/

def dispatch (f : Frame) (c : Host.Command) (width : Binary64) : Frame :=
  f.spawn (.command c width)

/-- A message is decoded and queued as a command; a malformed one is only reported. -/
def receive (f : Frame) (data : Value) : Frame :=
  match data.parameters with
  | .ok p => f.dispatch (.message p) (windowWidth f.realm)
  | .error e => f.report (.malformedMessage (Value.decodeErrorText e))

def latchError (f : Frame) (message : String) : Frame :=
  match f.bridge with
  | some b =>
      let (_, session, effects) := b.session.recordError b.session.retired.length message
      let (surface, realm) := b.surface.apply effects f.realm
      { f with bridge := some { b with session, surface }, realm }
  | none => f

def fire (f : Frame) (type : String) (handle : Handler → Frame → Frame) : Answer × Frame :=
  let called := f.realm.listenersFor .window type
  (.listeners called.length,
    called.foldl (fun f l => match f.realm.handler? l.closure with
      | some h => handle h f
      | none => f) f)

def fireMessage (f : Frame) (data : Value) : Answer × Frame :=
  f.fire "message" fun h f => if h = .bootMessage then f.receive data else f

def fireError (f : Frame) (message : String) : Answer × Frame :=
  f.fire "error" fun h f => if h = .recordError then f.latchError message else f

/-! Exit functions. -/

def endedClosure : Value := .error "closure invoked recursively or after being dropped"

/-- A number ends the run with its integer part as the code, any other value as a general
failure. -/
def exitCode (v : Value) : Int32 :=
  match v with
  | .number x => x.truncateInt32
  | _ => Exit.general

def signalExit (f : Frame) (channel : Nat) (code : Int32) : Frame :=
  match f.bridge with
  | some b =>
      let (sent, session) := b.session.signal channel code
      let f := { f with bridge := some { b with session } }
      if sent then f else f.report (.exitedAgain code)
  | none => f

def callExit (f : Frame) (guest : Option Nat) (code : Value) : Answer × Frame :=
  match f.guests[guest.getD (f.guests.length - 1)]? with
  | none => (.nothing, f)
  | some g =>
      match g.exitClosure with
      | none => (.notFunction, f)
      | some closure =>
          match f.realm.handler? closure with
          | some (.exit channel) => (.ok, f.signalExit channel (exitCode code))
          | _ => (.thrown endedClosure, f)

/-- Performs an action; `self` is the guest that acts, if one does. -/
def act (self : Option Nat) (f : Frame) (a : Action) : Answer × Frame :=
  match a with
  | .exit guest code => f.callExit (self.or guest) code
  | .canvas count nested => (.nothing, { f with realm := f.realm.addCanvases count nested })
  | .error message => f.fireError message
  | .message data => f.fireMessage data
  | .key m => (f.realm.pressKey m, f)

def actAll (self : Option Nat) (f : Frame) (actions : List Action) : List Answer × Frame :=
  actions.foldl
    (fun (answers, f) a =>
      let (answer, f) := act self f a
      (answers ++ [answer], f))
    ([], f)

/-! The guest runtime. -/

def updateGuest (f : Frame) (n : Nat) (change : Guest → Guest) : Frame :=
  { f with guests := f.guests.modify n change }

/-- What is set on something that is no object is lost. -/
def updateObject (f : Frame) (o : GuestObject) (change : Guest → Guest) : Frame :=
  match o with
  | .guest n => f.updateGuest n change
  | .nothing => f

def constructGuest (f : Frame) : Except Value GuestObject × Frame :=
  let script := f.scripts.head?.getD .plain
  let f := { f with scripts := f.scripts.drop 1 }
  match script.constructThrows with
  | some v => (.error v, f)
  | none => (.ok (.guest f.guests.length), { f with guests := f.guests ++ [Guest.new script] })

def constructObject (f : Frame) : Except GuestError GuestObject × Frame :=
  match f.runtime with
  | .throws v => (.error (.instantiate v.describe), f)
  | .other .function => (.ok .nothing, f)
  | .other _ =>
      (.error (.instantiate (Decode.inTicks "Go" ++ " runtime class is not loaded")), f)
  | .scripted =>
      let (made, f) := f.constructGuest
      (made.mapError fun v => .instantiate v.describe, f)

def scriptOf (f : Frame) : GuestObject → GuestScript
  | .guest n => ((f.guests[n]?).map Guest.script).getD .plain
  | .nothing => .plain

/-- Drops an exit closure, and with it its hook of the exit channel. -/
def dropExitClosure (f : Frame) (closure : Nat) : Frame :=
  let handler := f.realm.handler? closure
  let f := { f with realm := f.realm.dropClosure closure }
  match handler, f.bridge with
  | some (.exit channel), some b =>
      { f with bridge := some { b with session := b.session.dropHook channel } }
  | _, _ => f

/-- The exit closure of a launch takes the place of the previous one. -/
def keepExitClosure (f : Frame) (closure : Nat) : Frame :=
  match f.bridge with
  | some b =>
      let f := { f with bridge := some { b with exitClosure := some closure } }
      match b.exitClosure with
      | some old => f.dropExitClosure old
      | none => f
  | none => f

def notAnObject : Value := .error "Reflect.get called on non-object"

def failed (f : Frame) (v : Value) : Except GuestError α × Frame :=
  (.error (.instantiate v.describe), f)

/-- Drops the hook of a launch that no closure has taken. -/
def dropHook (f : Frame) (channel : Nat) : Frame :=
  match f.bridge with
  | some b => { f with bridge := some { b with session := b.session.dropHook channel } }
  | none => f

/-- Sets arguments and exit function on the object; the exit hook moves into the closure. -/
def equip (f : Frame) (o : GuestObject) (l : Host.Launch) : Except GuestError Unit × Frame :=
  let script := f.scriptOf o
  match script.argumentsThrow with
  | some v => (f.dropHook l.channel).failed v
  | none =>
      let f := f.updateObject o fun g => { g with arguments := some l.arguments.toList }
      let (closure, realm) := f.realm.newClosure (.exit l.channel)
      let f := { f with realm }
      match script.exitThrows with
      | some v => (f.dropExitClosure closure).failed v
      | none =>
          let f := f.updateObject o fun g => { g with exitClosure := some closure }
          (.ok (), f.keepExitClosure closure)

def stream (f : Frame) (o : GuestObject) (url : String) : Except GuestError Nat × Frame :=
  match o with
  | .nothing => f.failed notAnObject
  | .guest n =>
      match (f.scriptOf o).importThrows with
      | some v => f.failed v
      | none =>
          let g := f.guests[n]?
          let arguments := g.bind Guest.arguments
          let exit := (g.bind Guest.exitClosure).isSome
          (.ok n, (f.record (.fetch url)).record (.instantiateStreaming arguments exit))

/-- The launch of a guest up to the wait for its module. -/
def launchGuest (f : Frame) (l : Host.Launch) : Except GuestError Nat × Frame :=
  if f.realm.hasWindow then
    match f.constructObject with
    | (.error e, f) => (.error e, f.dropHook l.channel)
    | (.ok o, f) =>
        match f.equip o l with
        | (.error e, f) => (.error e, f)
        | (.ok (), f) => f.stream o l.moduleUrl
  else (.error (.instantiate EntryError.noWindow.message), f.dropHook l.channel)

def readInstance (script : GuestScript) : Except Value Unit :=
  match script.loaded with
  | some v =>
      if v.isObject || v matches .function then
        match script.instanceThrows with
        | some thrown => .error thrown
        | none => .ok ()
      else .error notAnObject
  | none =>
      match script.instanceThrows with
      | some thrown => .error thrown
      | none => .ok ()

def runScript (f : Frame) (n : Nat) (g : Guest) : Except GuestError Unit × Frame :=
  let f := f.record (.runGuest g.arguments)
  let f :=
    if g.script.atRun.isEmpty then f
    else
      let (answers, f) := actAll (some n) f g.script.atRun
      f.record (.atRun answers)
  match g.script.runThrows with
  | some v => (.error (.start v.describe), f)
  | none =>
      match g.script.returned with
      | .runPromise => (.ok (), f.spawn (.watching n false))
      | .settled outcome =>
          let f := f.updateGuest n fun g => { g with run := g.run.settle outcome }
          (.ok (), f.spawn (.watching n false))
      | .value => (.ok (), f)

def runGuest (f : Frame) (n : Nat) : Except GuestError Unit × Frame :=
  let notFunction := GuestError.start (Decode.inTicks "Go.run" ++ " is not a function")
  match f.guests[n]? with
  | none => (.error notFunction, f)
  | some g =>
      match g.script.runGetterThrows, g.script.runInstead with
      | some v, _ => (.error (.start v.describe), f)
      | none, some .function => (.ok (), f)
      | none, some _ => (.error notFunction, f)
      | none, none => f.runScript n g

/-! Tasks. -/

def take (f : Frame) (b : Bridge) (t : Turn) : Frame :=
  let (surface, realm) := b.surface.apply t.effects f.realm
  { f with bridge := some { b with session := t.session, surface }, realm }

def finish (f : Frame) (result : Except Host.BootError Host.Outcome) : Frame :=
  let f := match result with
    | .ok .banner => f
    | .ok .clean => f.report .runComplete
    | .ok (.faulted fault) => f.report (.runFaulted fault.code)
    | .error e => f.report (.bootFailed e)
  { f with locked := false }

/-- Takes a turn that needs nothing more from the guest: the task waits for the exit, or it is
done. -/
def conclude (f : Frame) (b : Bridge) (t : Turn) : Option Task × Frame :=
  let f := f.take b t
  match t.progress with
  | .done result => (none, f.finish result)
  | _ => (some .running, f)

def respond (f : Frame) (turn : Session → Turn) : Option Task × Frame :=
  match f.bridge with
  | some b => f.conclude b (turn b.session)
  | none => (none, { f with locked := false })

/-- The module of a guest is there: the display comes up and the entry point runs. -/
def bringUp (f : Frame) (n : Nat) (url : String) : Option Task × Frame :=
  match readInstance (f.scriptOf (.guest n)) with
  | .error v => f.respond (·.launched (.error (.instantiate v.describe)))
  | .ok () =>
      let f := f.report (.moduleReady url)
      match f.bridge with
      | none => (none, { f with locked := false })
      | some b =>
          let (result, f) := (f.take b (b.session.launched (.ok ()))).runGuest n
          f.respond (·.started result)

def startCommand (f : Frame) (c : Host.Command) (width : Binary64) : Option Task × Frame :=
  match f.bridge with
  | none => (none, f)
  | some b =>
      let f := { f with locked := true }
      let t := b.session.command width c
      match t.progress with
      | .launch l =>
          match (f.take b t).launchGuest l with
          | (.ok n, f) => (some (.loading n l.moduleUrl), f)
          | (.error e, f) => f.respond (·.launched (.error e))
      | _ => f.conclude b t

def loadOf (f : Frame) (n : Nat) : Promise := ((f.guests[n]?).map Guest.load).getD .resolved

/-- One poll of a task: whether it moved, what is left of it, and the frame after it. -/
def pollTask (f : Frame) (t : Task) : Bool × Option Task × Frame :=
  match t with
  | .command c width =>
      if f.locked then (true, none, f.report .commandRefused)
      else
        let (t, f) := f.startCommand c width
        (true, t, f)
  | .loading n url =>
      match f.loadOf n with
      | .pending => (false, some t, f)
      | .rejected v =>
          let (t, f) := f.respond (·.launched (.error (.fetch url v.describe)))
          (true, t, f)
      | .resolved =>
          let (t, f) := f.bringUp n url
          (true, t, f)
  | .running =>
      match f.respond Session.poll with
      | (none, f) => (true, none, f)
      | (some t, f) => (false, some t, f)
  | .watching n waited =>
      if waited then
        match ((f.guests[n]?).map Guest.run).getD .resolved with
        | .pending => (false, some t, f)
        | .resolved => (true, none, f)
        | .rejected v => (true, none, f.report (.runRejected v.describe))
      else (true, some (.watching n true), f)

/-- Polls the tasks from a position on, new ones included. -/
def pollFrom : Nat → Nat → Frame → Bool × Frame
  | 0, _, f => (false, f)
  | fuel + 1, i, f =>
      match f.tasks[i]? with
      | none => (false, f)
      | some t =>
          let (moved, left, f) := f.pollTask t
          match left with
          | some t =>
              let (others, f) := pollFrom fuel (i + 1) { f with tasks := f.tasks.set i t }
              (moved || others, f)
          | none => (true, (pollFrom fuel i { f with tasks := f.tasks.eraseIdx i }).2)

def settleFor : Nat → Nat → Frame → Frame
  | 0, _, f => f
  | passes + 1, polls, f =>
      let (moved, f) := pollFrom polls 0 f
      if moved then settleFor passes polls f else f

def commandBound (f : Frame) : Nat :=
  let posts (s : GuestScript) : Nat := s.atRun.length
  (f.scripts.map posts ++ f.guests.map fun g => posts g.script).foldl Nat.add f.tasks.length

/-- Runs the tasks until none moves. A command moves at most three times, and so does the watcher
of its guest at most. -/
def settle (f : Frame) : Frame :=
  let bound := 6 * f.commandBound + 6
  settleFor bound bound f

/-! Entry points. -/

def checkDocument (r : Realm) : Except EntryError Unit :=
  if !r.hasWindow then .error .noWindow
  else if !r.hasDocument then .error (.missing "document")
  else if r.body.isNone then .error (.missing "<body>")
  else .ok ()

/-- Installs the bridge. Its key listener goes again if the error listener cannot be added. -/
def install (f : Frame) (options : Value) : Except EntryError Unit × Frame :=
  match options.bridgeOptions with
  | .error e => (.error (.options (Value.decodeErrorText e)), f)
  | .ok o =>
      let f := { f with realm := f.realm.openConsole o.maxLevel }
      if f.bridge.isSome then (.error .alreadyInstalled, f)
      else
        match checkDocument f.realm with
        | .error e => (.error e, f)
        | .ok () =>
            let (session, effects) := Session.new o
            let (surface, realm) := DocumentSurface.new.apply effects f.realm
            let (closure, realm) := realm.newClosure .recordError
            match Browsing.listen { target := .window, type := "error", closure } realm with
            | (.error v, realm) =>
                (.error (.script v), { f with realm := surface.drop (realm.dropClosure closure) })
            | (.ok (), realm) =>
                let bridge := { session, surface, exitClosure := none }
                (.ok (), ({ f with realm, bridge := some bridge }).report .installed)

def bootFromAttributes (f : Frame) (options : Value) : Except Value Unit × Frame :=
  match f.install options with
  | (.error e, f) => (.error e.thrown, f)
  | (.ok (), f) =>
      match (Browsing.frameElement f.realm).1 with
      | .error v => (.error v, f)
      | .ok none => (.error (EntryError.missing "frameElement").thrown, f)
      | .ok (some n) =>
          let p := Boot.Parameters.ofAttributes n.attribute?
          (.ok (), f.dispatch (.frameLoaded p) (elementWidth n))

def listenForMessages (f : Frame) (options : Value) : Except Value Unit × Frame :=
  match f.install options with
  | (.error e, f) => (.error e.thrown, f)
  | (.ok (), f) =>
      let (closure, realm) := f.realm.newClosure .bootMessage
      match Browsing.listen { target := .window, type := "message", closure } realm with
      | (.error v, realm) => (.error v, { f with realm := realm.dropClosure closure })
      | (.ok (), realm) => (.ok (), { f with realm })

/-- Boots again from the last request, sized for the frame as it is now. -/
def restart (f : Frame) : Except Value Unit × Frame :=
  if f.bridge.isNone then (.error EntryError.notInstalled.thrown, f)
  else if !f.realm.hasWindow then (.error EntryError.noWindow.thrown, f)
  else (.ok (), f.dispatch .restart (currentWidth f.realm))

/-! Promises settled from outside. -/

def settleLoad (f : Frame) (guest : Option Nat) (outcome : Promise) : Frame :=
  f.updateGuest (guest.getD (f.guests.length - 1)) fun g =>
    { g with load := g.load.settle outcome }

def settleRun (f : Frame) (guest : Option Nat) (outcome : Promise) : Option Bool × Frame :=
  let n := guest.getD (f.guests.length - 1)
  match f.guests[n]? with
  | none => (none, f)
  | some g =>
      (some g.run.isPending, f.updateGuest n fun g => { g with run := g.run.settle outcome })

end Frame

end Chip8Frame.Browser
