import Chip8Frame.Control.Selection
import Chip8Frame.Exit.Fault
import Chip8Frame.Host.Error
import Chip8Frame.Surface.Keys

/-!
Everything the bridge reports, each report a cause with its data. An entry is the written form: a
level, the part of the bridge that reports, a message and named fields.
-/

namespace Chip8Frame.Log

inductive Source where
  | supervisor
  | surface
  | latch
  | controller
  | host
  | frame
  | document
  | guest
  | page
  deriving DecidableEq, Repr

def Source.path : Source → String
  | supervisor => "chip8_host_bridge::supervisor"
  | surface => "chip8_host_bridge::surface"
  | latch => "chip8_host_bridge::runtime"
  | controller => "chip8_host_bridge::controller"
  | host => "chip8_host_bridge::host"
  | frame => "chip8_host_wasm::frame"
  | document => "chip8_host_wasm::dom"
  | guest => "chip8_host_wasm::go"
  | page => "chip8_host_wasm::page"

structure Field where
  name : String
  text : String
  /-- A console writes the text of a quoted field in quotes. -/
  quoted : Bool
  deriving DecidableEq, Repr

def Field.plain (name text : String) : Field := ⟨name, text, false⟩
def Field.quoting (name text : String) : Field := ⟨name, text, true⟩

structure Entry where
  level : Level
  source : Source
  message : String
  fields : List Field
  deriving DecidableEq, Repr

inductive Notice where
  | bootRefused (state : String)
  | booting (run : Nat) (config : Boot.Config)
  | launchFailed (run : Nat) (error : Host.GuestError)
  | startFailed (run : Nat) (error : Host.GuestError)
  | hookLost (run : Nat)
  | exitedCleanly (run : Nat) (errored : Bool)
  | faulted (run : Nat) (fault : Fault)
  | noProgram
  | requestRefused (error : Boot.ConfigError)
  | hardReset (state : String)
  | removingSurface (kind : Surface.Kind)
  | uncaughtError (message : String)
  | bootSent (program : String) (transport : Control.Transport)
  | resetRequested
  | installed
  | commandRefused
  | runComplete
  | runFaulted (code : FaultCode)
  | bootFailed (error : Host.BootError)
  | malformedMessage (reason : String)
  | displayReserved (width height : UInt32)
  | diagnosticFailed (reason : String)
  | bannerFailed (reason : String)
  | canvasesRemoved (count : Nat)
  | canvasRemovalFailed (reason : String)
  | keyCaptureFailed (reason : String)
  | moduleReady (url : String)
  | exitedAgain (code : Int32)
  | runRejected (reason : String)
  | blurFailed (reason : String)
  deriving DecidableEq

namespace Notice

def runField (run : Nat) : Field := .plain "run" (toString run)

def entry : Notice → Entry
  | bootRefused state =>
      ⟨.warn, .supervisor, "boot rejected, guest run in flight", [.quoting "state" state]⟩
  | booting run c =>
      ⟨.info, .supervisor, "booting guest",
        [runField run, .quoting "program" c.path, .plain "speed" (toString c.speed.toNat),
          .plain "pixel_size" (toString c.pixelSize.toInt)]⟩
  | launchFailed run e =>
      ⟨.error, .supervisor, "guest instantiation failed: " ++ e.message, [runField run]⟩
  | startFailed run e =>
      ⟨.error, .supervisor, "guest failed to start: " ++ e.message, [runField run]⟩
  | hookLost run =>
      ⟨.error, .supervisor, "guest dropped its exit hook without signalling", [runField run]⟩
  | exitedCleanly run errored =>
      ⟨.info, .supervisor, "guest exited cleanly",
        [runField run, .plain "errored" (Boot.Arguments.boolText errored)]⟩
  | faulted run f =>
      ⟨.warn, .supervisor, "guest faulted: " ++ f.message,
        [runField run, .plain "code" f.code.text, .plain "category" f.category.name]⟩
  | noProgram => ⟨.info, .host, "no program requested, showing boot banner", []⟩
  | requestRefused e => ⟨.warn, .host, "boot request rejected: " ++ e.message, []⟩
  | hardReset state =>
      ⟨.info, .host, "hard reset, discarding hosting context", [.quoting "state" state]⟩
  | removingSurface kind =>
      ⟨.debug, .surface, "removing prior surface", [.plain "kind" kind.name]⟩
  | uncaughtError message =>
      ⟨.debug, .latch, "uncaught error in hosting context", [.plain "message" message]⟩
  | bootSent program transport =>
      ⟨.info, .controller, "boot command sent",
        [.plain "program" program, .plain "transport" transport.name]⟩
  | resetRequested => ⟨.info, .controller, "hard reset requested", []⟩
  | installed => ⟨.info, .frame, "host bridge installed", []⟩
  | commandRefused =>
      ⟨.warn, .frame, "command rejected, a guest run is in flight; boot through the frame " ++
        "attributes or reload the frame", []⟩
  | runComplete => ⟨.info, .frame, "guest run complete", []⟩
  | runFaulted code =>
      ⟨.info, .frame, "guest run ended with a fault", [.plain "code" code.text]⟩
  | bootFailed e => ⟨.error, .frame, "boot failed: " ++ e.message, []⟩
  | malformedMessage reason =>
      ⟨.warn, .frame, "ignoring malformed boot message: " ++ reason, []⟩
  | displayReserved width height =>
      ⟨.debug, .document, "display reserved for the guest canvas",
        [.plain "width" (toString width.toNat), .plain "height" (toString height.toNat)]⟩
  | diagnosticFailed reason =>
      ⟨.error, .document, "failed to mount diagnostic", [.plain "err" reason]⟩
  | bannerFailed reason =>
      ⟨.error, .document, "failed to mount boot banner", [.plain "err" reason]⟩
  | canvasesRemoved count =>
      ⟨.debug, .document, "guest canvases removed", [.plain "removed" (toString count)]⟩
  | canvasRemovalFailed reason =>
      ⟨.error, .document, "failed to remove guest canvases", [.plain "err" reason]⟩
  | keyCaptureFailed reason =>
      ⟨.error, .document, "failed to install key capture", [.plain "err" reason]⟩
  | moduleReady url => ⟨.debug, .guest, "guest module instantiated", [.plain "url" url]⟩
  | exitedAgain code =>
      ⟨.debug, .guest, "guest exited again after its exit was delivered",
        [.plain "code" (toString code.toInt)]⟩
  | runRejected reason =>
      ⟨.debug, .guest, "guest run promise rejected", [.plain "reason" reason]⟩
  | blurFailed reason =>
      ⟨.debug, .page, "could not blur active control", [.plain "reason" reason]⟩

end Notice

end Chip8Frame.Log
