import Chip8Frame.Boot.Config

/-!
Why a boot ends without an outcome.
-/

namespace Chip8Frame.Host

inductive GuestError where
  | fetch (url reason : String)
  | instantiate (reason : String)
  | start (reason : String)
  deriving DecidableEq, Repr

def GuestError.message : GuestError → String
  | fetch url reason => "failed to fetch guest module " ++ url ++ ": " ++ reason
  | instantiate reason => "failed to instantiate guest module: " ++ reason
  | start reason => "guest entry point failed to start: " ++ reason

inductive BootError where
  | config (error : Boot.ConfigError)
  | guest (error : GuestError)
  | busy (state : String)
  | exitHookDropped
  | nothingToRestart
  deriving DecidableEq, Repr

def BootError.message : BootError → String
  | config e => "invalid boot configuration: " ++ e.message
  | guest e => e.message
  | busy state => "cannot boot while " ++ state ++ "; a hard reset is required"
  | exitHookDropped => "guest exit hook was dropped before an exit code was signalled"
  | nothingToRestart => "nothing to restart: no boot has been requested yet"

end Chip8Frame.Host
