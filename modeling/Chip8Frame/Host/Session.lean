import Chip8Frame.Exit.Hook
import Chip8Frame.Host.Context

/-!
A hosting context over time. A session holds the current context, the boot in flight, every exit
channel ever opened and the latches of discarded contexts, so that hooks and latches kept from
earlier runs stay meaningful. A boot stops where it needs its surroundings: at the launch of the
guest, at the call of its entry point, and while it waits for the exit.
-/

namespace Chip8Frame.Host

inductive Stage where
  | launching
  | starting
  | running
  deriving DecidableEq, Repr

/-- A boot between two of its waits, with the exit channel of its run. -/
structure Flight where
  /-- What its context counted with this boot; like that count, it agrees with a number of 64 bits
  below `2 ^ 64` boots. -/
  run : Nat
  config : Boot.Config
  channel : Nat
  stage : Stage
  deriving DecidableEq

/-- What a guest needs to come up; its exit hook is a hook of the channel. -/
structure Launch where
  channel : Nat
  moduleUrl : String
  arguments : Boot.Arguments
  deriving DecidableEq

inductive Progress where
  | launch (launch : Launch)
  | start
  | pending
  | done (result : Except BootError Outcome)

inductive Command where
  | frameLoaded (parameters : Boot.Parameters)
  | message (parameters : Boot.Parameters)
  | restart

structure Session where
  context : Context
  flight : Option Flight
  channels : List Exit.Channel
  retired : List Latch

structure Turn where
  session : Session
  effects : List Effect
  progress : Progress

namespace Session

def new (options : Boot.Options) : Session × List Effect :=
  let (context, effects) := Context.new options
  ({ context, flight := none, channels := [], retired := [] }, effects)

def setChannel (s : Session) (n : Nat) (c : Exit.Channel) : Session :=
  { s with channels := s.channels.set n c }

/-- The boot in flight is over or given up: nobody waits on its channel any more. -/
def land (s : Session) : Session :=
  match s.flight with
  | some f =>
      { s with
        flight := none
        channels := s.channels.modify f.channel Exit.Channel.dropWait }
  | none => s

def refuse (s : Session) (e : BootError) (effects : List Effect) : Turn :=
  ⟨s, effects, .done (.error e)⟩

def boot (s : Session) (c : Boot.Config) : Turn :=
  let h := s.context
  if h.state.acceptsBoot then
    let (context, effects) := h.beginBoot c
    let channel := s.channels.length
    ⟨{ s with
        context
        channels := s.channels ++ [Exit.Channel.opened]
        flight := some { run := context.runs, config := c, channel, stage := .launching } },
      effects,
      .launch { channel, moduleUrl := h.options.moduleUrl, arguments := c.arguments }⟩
  else s.refuse (.busy h.state.name) [.note (.bootRefused h.state.name)]

/-- A request that resolves is remembered for a restart and then booted. -/
def request (s : Session) (r : Boot.Request) (width : Binary64) : Turn :=
  match r.parameters.resolve width s.context.options with
  | .error e => s.refuse (.config e) [.note (.requestRefused e)]
  | .ok c => boot { s with context := { s.context with lastRequest := some r } } c

def command (s : Session) (width : Binary64) : Command → Turn
  | .frameLoaded p =>
      if p.requestsBoot then s.request ⟨.attributes, p⟩ width
      else
        let (context, effects) := s.context.showBanner
        ⟨{ s with context }, effects, .done (.ok .banner)⟩
  | .message p => s.request ⟨.message, p⟩ width
  | .restart =>
      match s.context.lastRequest with
      | some r => s.request r width
      | none => s.refuse .nothingToRestart []

def launched (s : Session) (result : Except GuestError Unit) : Turn :=
  match s.flight with
  | some f =>
      if f.stage = .launching then
        match result with
        | .error e =>
            let (context, effects) := s.context.launchFailed f.run e
            ⟨land { s with context }, effects, .done (.error (.guest e))⟩
        | .ok () =>
            let (context, effects) := s.context.launched f.config
            ⟨{ s with context, flight := some { f with stage := .starting } }, effects, .start⟩
      else ⟨s, [], .pending⟩
  | none => ⟨s, [], .pending⟩

def poll (s : Session) : Turn :=
  match s.flight with
  | some f =>
      if f.stage = .running then
        match ((s.channels[f.channel]?).getD default).poll.1 with
        | .pending => ⟨s, [], .pending⟩
        | .dropped =>
            let (context, effects) := s.context.hookLost f.run
            ⟨land { s with context }, effects, .done (.error .exitHookDropped)⟩
        | .code code =>
            let (context, effects, outcome) := s.context.exited f.run f.config code
            ⟨land { s with context }, effects, .done (.ok outcome)⟩
      else ⟨s, [], .pending⟩
  | none => ⟨s, [], .pending⟩

/-- The surroundings answer the call of the entry point; a started guest may already have
exited. -/
def started (s : Session) (result : Except GuestError Unit) : Turn :=
  match s.flight with
  | some f =>
      if f.stage = .starting then
        match result with
        | .error e =>
            let (context, effects) := s.context.startFailed f.run e
            ⟨land { s with context }, effects, .done (.error (.guest e))⟩
        | .ok () => poll { s with flight := some { f with stage := .running } }
      else ⟨s, [], .pending⟩
  | none => ⟨s, [], .pending⟩

def abandon (s : Session) : Session := s.land

def signal (s : Session) (n : Nat) (code : Int32) : Bool × Session :=
  let (sent, c) := ((s.channels[n]?).getD default).signal code
  (sent, s.setChannel n c)

def armed (s : Session) (n : Nat) : Bool := ((s.channels[n]?).getD default).armed

def hookText (s : Session) (n : Nat) : String := ((s.channels[n]?).getD default).hookText

def cloneHook (s : Session) (n : Nat) : Session :=
  { s with channels := s.channels.modify n Exit.Channel.cloneHook }

def dropHook (s : Session) (n : Nat) : Session :=
  { s with channels := s.channels.modify n Exit.Channel.dropHook }

def latches (s : Session) : List Latch := s.retired ++ [s.context.latch]

/-- Records an uncaught error on a latch; `none` if there is no such latch. -/
def recordError (s : Session) (n : Nat) (message : String) :
    Option Bool × Session × List Effect :=
  if n = s.retired.length then
    let latch := s.context.latch
    let (latch', effects) := latch.record message
    (some latch.records, { s with context := { s.context with latch := latch' } }, effects)
  else
    match s.retired[n]? with
    | some latch =>
        let (latch', effects) := latch.record message
        (some latch.records, { s with retired := s.retired.set n latch' }, effects)
    | none => (none, s, [])

def resetNotice (s : Session) : List Effect := [.note (.hardReset s.context.state.name)]

/-- Replaces the context by a new one with the same options. Nothing else survives but the
handles that others hold. -/
def hardReset (s : Session) : Session × List Effect :=
  let s := s.land
  let (context, effects) := Context.new s.context.options
  ({ s with context, retired := s.retired ++ [s.context.latch] }, effects)

end Session

end Chip8Frame.Host
