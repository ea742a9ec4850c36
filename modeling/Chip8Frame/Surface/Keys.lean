/-!
What a page shows and which keys it captures: the surfaces of a hosting context, the calls that a
surface backend answers, and the splash text of a frame that was loaded without a program. The guest
claims every key, function keys included, except combinations with the meta modifier, which stay
with the browser.
-/

namespace Chip8Frame.Surface

/-- What is live on the page: the display the guest draws into, or the block describing a fault. -/
inductive Kind where
  | display
  | diagnostic
  deriving DecidableEq, Repr

def Kind.name : Kind → String
  | display => "Display"
  | diagnostic => "Diagnostic"

inductive Call where
  | mountDisplay (width height : UInt32)
  | mountDiagnostic (text : String)
  | unmount (kind : Kind)
  | mountBanner (text : String)
  | unmountBanner
  | captureKeys
  deriving DecidableEq, Repr

structure Modifiers where
  metaKey : Bool
  ctrlKey : Bool
  altKey : Bool
  shiftKey : Bool
  deriving DecidableEq, Repr

def Modifiers.suppressesDefault (m : Modifiers) : Bool := !m.metaKey

def logo : String :=
  "
       ██████╗  ██████╗      ██████╗██╗  ██╗██╗██████╗        █████╗
      ██╔════╝ ██╔═══██╗    ██╔════╝██║  ██║██║██╔══██╗      ██╔══██╗
      ██║  ███╗██║   ██║    ██║     ███████║██║██████╔╝█████╗╚█████╔╝
      ██║   ██║██║   ██║    ██║     ██╔══██║██║██╔═══╝ ╚════╝██╔══██╗
      ╚██████╔╝╚██████╔╝    ╚██████╗██║  ██║██║██║           ╚█████╔╝
       ╚═════╝  ╚═════╝      ╚═════╝╚═╝  ╚═╝╚═╝╚═╝            ╚════╝"

def splashText (version : String) : String :=
  logo ++ "\n\n    +++ Version " ++ version ++
    "\n    +++ Enabling WASM data & protocol sync buffers" ++
    "\n    +++ Mem check ~ 4096 bytes: OK" ++
    "\n    +++ System cold boot completed with 0 warnings" ++
    "\n      > \u2588"

end Chip8Frame.Surface
