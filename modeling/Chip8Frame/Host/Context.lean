import Chip8Frame.Surface.Manager

/-!
One hosting context and its guest lifecycle. A context is idle, booting, running or faulted; a run
ends only by the guest's exit. Each function is one uninterrupted stretch of a boot, between the
points where a boot waits for its guest. The latch for uncaught errors records only while a run is
in progress, and only the first error of a run.
-/

namespace Chip8Frame.Host

structure Latch where
  armed : Bool
  errored : Bool
  deriving DecidableEq, Repr, Inhabited

namespace Latch

def new : Latch := { armed := false, errored := false }

def arm (_ : Latch) : Latch := { armed := true, errored := false }

def disarm (l : Latch) : Latch := { l with armed := false }

def records (l : Latch) : Bool := l.armed && !l.errored

def record (l : Latch) (message : String) : Latch × List Effect :=
  if l.records then ({ l with errored := true }, [.note (.uncaughtError message)]) else (l, [])

theorem record_silent (l : Latch) (message : String) (call : Surface.Call) :
    .surface call ∉ (l.record message).2 := by
  unfold record
  split <;> simp

end Latch

inductive State where
  | idle
  | booting
  | running
  | faulted (fault : Fault)
  deriving DecidableEq

def State.name : State → String
  | idle => "idle"
  | booting => "booting"
  | running => "running"
  | faulted _ => "faulted"

def State.acceptsBoot : State → Bool
  | idle | faulted _ => true
  | booting | running => false

def State.fault? : State → Option Fault
  | faulted f => some f
  | _ => none

/-- How a command ended that did not fail: with a banner instead of a boot, or with a run. -/
inductive Outcome where
  | banner
  | clean
  | faulted (fault : Fault)
  deriving DecidableEq

structure Context where
  options : Boot.Options
  state : State
  surfaces : Surface.Manager
  latch : Latch
  /-- Boots that were let past the state check. The count has no bound; a counter of 64 bits agrees
  with it below `2 ^ 64` boots. -/
  runs : Nat
  lastRequest : Option Boot.Request
  deriving DecidableEq

namespace Context

/-- A new context binds key capture for its lifetime. -/
def new (options : Boot.Options) : Context × List Effect :=
  let bound := Surface.Manager.new.bindCapture
  ({ options, state := .idle, surfaces := bound.manager, latch := .new, runs := 0,
     lastRequest := none }, bound.effects)

/-- From the command up to the launch of the guest: prior surface and banner are gone before. -/
def beginBoot (h : Context) (c : Boot.Config) : Context × List Effect :=
  let cleared := h.surfaces.clear
  let bare := cleared.manager.removeBanner
  ({ h with runs := h.runs + 1, surfaces := bare.manager, state := .booting },
    .note (.booting (h.runs + 1) c) :: cleared.effects ++ bare.effects)

def launchFailed (h : Context) (run : Nat) (e : GuestError) : Context × List Effect :=
  ({ h with state := .idle }, [.note (.launchFailed run e)])

/-- The guest is launched; its display is mounted before its entry point runs. -/
def launched (h : Context) (c : Boot.Config) : Context × List Effect :=
  let shown := h.surfaces.createDisplay c.displaySize
  ({ h with surfaces := shown.manager, state := .running, latch := h.latch.arm }, shown.effects)

def startFailed (h : Context) (run : Nat) (e : GuestError) : Context × List Effect :=
  let cleared := h.surfaces.clear
  ({ h with surfaces := cleared.manager, state := .idle, latch := h.latch.disarm },
    .note (.startFailed run e) :: cleared.effects)

/-- A clean exit leaves the display as the guest left it; a fault replaces it. -/
def exited (h : Context) (run : Nat) (c : Boot.Config) (code : Int32) :
    Context × List Effect × Outcome :=
  let latch := h.latch.disarm
  match FaultCode.ofExit? code with
  | none =>
      ({ h with state := .idle, latch }, [.note (.exitedCleanly run latch.errored)], .clean)
  | some code =>
      let f := Fault.of code c.program
      let shown := h.surfaces.renderFault f
      ({ h with state := .faulted f, latch, surfaces := shown.manager },
        .note (.faulted run f) :: shown.effects, .faulted f)

def hookLost (h : Context) (run : Nat) : Context × List Effect :=
  ({ h with state := .idle, latch := h.latch.disarm }, [.note (.hookLost run)])

def showBanner (h : Context) : Context × List Effect :=
  let shown := h.surfaces.showBanner h.options.bannerVersion
  ({ h with surfaces := shown.manager }, .note .noProgram :: shown.effects)

end Context

end Chip8Frame.Host
