import Chip8Frame.Host.Session

/-!
A session whose guests follow scripts and whose surfaces are in memory. Everything that happens is
recorded in its order, so that the ordering rules of a boot can be watched from outside.
-/

namespace Chip8Frame.Host

namespace Rehearsal

/-- What anyone may do with exit hooks and error latches. Without a number the hook is that of
the latest launch and the latch is the newest one. -/
inductive Action where
  | signal (hook : Option Nat) (code : Int32)
  | armed (hook : Option Nat)
  | describe (hook : Option Nat)
  | release (hook : Option Nat)
  | error (latch : Option Nat) (message : String)
  | errored

inductive Answer where
  | nothing
  | bool (value : Bool)
  | bools (values : List Bool)
  | text (value : String)

/-- A scripted failure; a download without an address names the one that was asked for. -/
inductive Failure where
  | fetch (url : Option String) (reason : String)
  | instantiate (reason : String)
  | start (reason : String)

def Failure.error (defaultUrl : String) : Failure → GuestError
  | fetch url reason => .fetch (url.getD defaultUrl) reason
  | instantiate reason => .instantiate reason
  | start reason => .start reason

structure Script where
  /-- How many polls the launch stays pending. -/
  yields : Nat
  atLaunch : List Action
  launchFailure : Option Failure
  atRun : List Action
  runFailure : Option Failure
  /-- Whether the exit hook is kept after the script has ended. -/
  hold : Bool

/-- The guest of a launch beyond the last script keeps its hook and does nothing. -/
def Script.hung : Script :=
  { yields := 0, atLaunch := [], launchFailure := none, atRun := [], runFailure := none,
    hold := true }

inductive Event where
  | effect (effect : Effect)
  | instantiate (url : String) (arguments : List String) (armed : Bool) (live : Nat)
  | atLaunch (answers : List Answer)
  | run (live : Nat)
  | atRun (answers : List Answer)
  | runtimeDropped (scriptsLeft : Nat)
  | rebuild

/-- A launch that is still pending: its number, its script and the polls it has left. -/
structure Pending where
  launch : Launch
  script : Script
  polls : Nat

end Rehearsal

open Rehearsal in
structure Rehearsal where
  session : Session
  backend : Surface.Headless
  scripts : List Script
  launching : Option Pending
  /-- Numbers of the launches whose exit hook is held. -/
  held : List Nat
  events : List Event

namespace Rehearsal

abbrev Result := Except BootError Outcome

def emit (r : Rehearsal) (e : Event) : Rehearsal := { r with events := r.events ++ [e] }

def apply (r : Rehearsal) (effects : List Effect) : Rehearsal :=
  effects.foldl
    (fun r e =>
      let r := r.emit (.effect e)
      match e with
      | .note _ => r
      | .surface call => { r with backend := r.backend.perform call })
    r

def new (options : Boot.Options) (scripts : List Script) : Rehearsal :=
  let (session, effects) := Session.new options
  apply { session, backend := .new, scripts, launching := none, held := [], events := [] } effects

def takeEvents (r : Rehearsal) : List Event × Rehearsal := (r.events, { r with events := [] })

def latest? (r : Rehearsal) : Option Nat :=
  if r.session.channels.isEmpty then none else some (r.session.channels.length - 1)

/-- The held hook that an action means, if it is held. -/
def held? (r : Rehearsal) (hook : Option Nat) : Option Nat :=
  (hook.or r.latest?).filter r.held.contains

def release (r : Rehearsal) (n : Nat) : Rehearsal :=
  { r with session := r.session.dropHook n, held := r.held.filter (· ≠ n) }

/-- Performs an action; `own` is the hook of the script that acts, if a script does. -/
def act (own : Option Nat) (r : Rehearsal) (a : Action) : Answer × Rehearsal :=
  match a with
  | .signal hook code =>
      match own.or (r.held? hook) with
      | some n =>
          let (sent, session) := r.session.signal n code
          (.bool sent, { r with session })
      | none => (.nothing, r)
  | .armed hook =>
      (((own.or (r.held? hook)).map fun n => .bool (r.session.armed n)).getD .nothing, r)
  | .describe hook =>
      (((own.or (r.held? hook)).map fun n => .text (r.session.hookText n)).getD .nothing, r)
  | .release hook =>
      match r.held? hook with
      | some n => (.bool true, r.release n)
      | none => (.bool false, r)
  | .error latch message =>
      let n := latch.getD r.session.retired.length
      let (recorded, session, effects) := r.session.recordError n message
      (match recorded with
        | some b => .bool b
        | none => .nothing,
        apply { r with session } effects)
  | .errored => (.bools (r.session.latches.map (·.errored)), r)

def actAll (own : Option Nat) (r : Rehearsal) (actions : List Action) :
    List Answer × Rehearsal :=
  actions.foldl
    (fun (answers, r) a =>
      let (answer, r) := act own r a
      (answers ++ [answer], r))
    ([], r)

def perform (r : Rehearsal) (own : Nat) (actions : List Action) (event : List Answer → Event) :
    Rehearsal :=
  if actions.isEmpty then r
  else
    let (answers, r) := actAll (some own) r actions
    r.emit (event answers)

def settleHook (r : Rehearsal) (n : Nat) (hold : Bool) : Rehearsal :=
  if hold then { r with held := r.held ++ [n] }
  else { r with session := r.session.dropHook n }

def conclude (r : Rehearsal) (t : Turn) : Option Result × Rehearsal :=
  let r := apply { r with session := t.session } t.effects
  match t.progress with
  | .done result => (some result, r)
  | _ => (none, r)

def start (r : Rehearsal) (n : Nat) (script : Script) : Option Result × Rehearsal :=
  let r := r.emit (.run r.backend.liveCount)
  let r := r.perform n script.atRun .atRun
  let r := r.settleHook n script.hold
  let result := match script.runFailure with
    | some f => .error (f.error "")
    | none => .ok ()
  r.conclude (r.session.started result)

def finishLaunch (r : Rehearsal) (p : Pending) : Option Result × Rehearsal :=
  let n := p.launch.channel
  let r := { r with launching := none }.perform n p.script.atLaunch .atLaunch
  match p.script.launchFailure with
  | some f =>
      let r := r.settleHook n p.script.hold
      r.conclude (r.session.launched (.error (f.error p.launch.moduleUrl)))
  | none =>
      let t := r.session.launched (.ok ())
      let r := apply { r with session := t.session } t.effects
      r.start n p.script

def launch (r : Rehearsal) (l : Launch) : Option Result × Rehearsal :=
  let script := r.scripts.head?.getD .hung
  let r := { r with scripts := r.scripts.drop 1 }.emit
    (.instantiate l.moduleUrl l.arguments.toList (r.session.armed l.channel) r.backend.liveCount)
  match script.yields with
  | 0 => r.finishLaunch ⟨l, script, 0⟩
  | n + 1 => (none, { r with launching := some ⟨l, script, n⟩ })

/-- Drives a turn as far as it goes; no result means that the boot is pending. -/
def follow (r : Rehearsal) (t : Turn) : Option Result × Rehearsal :=
  match t.progress with
  | .launch l => (apply { r with session := t.session } t.effects).launch l
  | _ => r.conclude t

def poll (r : Rehearsal) : Option Result × Rehearsal :=
  match r.launching with
  | some p =>
      match p.polls with
      | 0 => r.finishLaunch p
      | n + 1 => (none, { r with launching := some { p with polls := n } })
  | none => r.conclude r.session.poll

/-- Drops the boot in flight, and with a pending launch its exit hook. -/
def abandon (r : Rehearsal) : Rehearsal :=
  let r := { r with session := r.session.abandon }
  match r.launching with
  | some p => { r with session := r.session.dropHook p.launch.channel, launching := none }
  | none => r

inductive Item where
  | poll
  | act (action : Action)

def interlude (r : Rehearsal) : List Item → List Answer × Option Result × Rehearsal
  | [] => ([], none, r)
  | .poll :: items =>
      match r.poll with
      | (some result, r) => ([.text "done"], some result, r)
      | (none, r) =>
          let (answers, result, r) := r.interlude items
          (.text "pending" :: answers, result, r)
  | .act a :: items =>
      let (answer, r) := act none r a
      let (answers, result, r) := r.interlude items
      (answer :: answers, result, r)

/-- Drives a boot: a first poll, the interlude if it is pending, one more poll after an interlude,
and then it is dropped. -/
def drive (r : Rehearsal) (t : Turn) (items : List Item) :
    List Answer × Option Result × Rehearsal :=
  match r.follow t with
  | (some result, r) => ([], some result, r)
  | (none, r) =>
      match r.interlude items with
      | (answers, some result, r) => (answers, some result, r)
      | (answers, none, r) =>
          if items.isEmpty then (answers, none, r.abandon)
          else
            match r.poll with
            | (some result, r) => (answers, some result, r)
            | (none, r) => (answers, none, r.abandon)

def changeSurfaces (r : Rehearsal) (f : Surface.Manager → Surface.Change) : Bool × Rehearsal :=
  let change := f r.session.context.surfaces
  let context := { r.session.context with surfaces := change.manager }
  (change.made, apply { r with session := { r.session with context } } change.effects)

def hardReset (r : Rehearsal) (scripts : List Script) : Rehearsal :=
  let r := (apply r r.session.resetNotice).emit (.runtimeDropped r.scripts.length)
  let (session, effects) := r.session.hardReset
  apply ({ r with session, backend := .new, scripts }.emit .rebuild) effects

end Rehearsal

end Chip8Frame.Host
