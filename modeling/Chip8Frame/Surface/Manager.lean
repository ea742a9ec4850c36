import Chip8Frame.Log.Notice

/-!
Bookkeeping of the execution surface: one live surface, teardown before creation, one banner, key
capture bound once. Nothing is read back from a backend, so each operation is a new state, the
effects in their order, and whether the operation did anything.
-/

namespace Chip8Frame

/-- What a bridge does to its surroundings: it reports, or it calls its surface backend. -/
inductive Effect where
  | note (notice : Log.Notice)
  | surface (call : Surface.Call)
  deriving DecidableEq

namespace Surface

structure Manager where
  live : Option Kind
  bannerShown : Bool
  captureBound : Bool
  deriving DecidableEq, Repr, Inhabited

structure Change where
  manager : Manager
  effects : List Effect
  made : Bool
  deriving DecidableEq

namespace Manager

def new : Manager := { live := none, bannerShown := false, captureBound := false }

def unchanged (m : Manager) : Change := ⟨m, [], false⟩

def clear (m : Manager) : Change :=
  match m.live with
  | some kind =>
      ⟨{ m with live := none },
        [.note (.removingSurface kind), .surface (.unmount kind)], true⟩
  | none => m.unchanged

def bindCapture (m : Manager) : Change :=
  if m.captureBound then m.unchanged
  else ⟨{ m with captureBound := true }, [.surface .captureKeys], true⟩

def createDisplay (m : Manager) (size : UInt32 × UInt32) : Change :=
  let cleared := m.clear
  ⟨{ cleared.manager with live := some .display },
    cleared.effects ++ [.surface (.mountDisplay size.1 size.2)], true⟩

def renderFault (m : Manager) (f : Fault) : Change :=
  let cleared := m.clear
  ⟨{ cleared.manager with live := some .diagnostic },
    cleared.effects ++ [.surface (.mountDiagnostic f.banner)], true⟩

def showBanner (m : Manager) (version : String) : Change :=
  if m.bannerShown then m.unchanged
  else ⟨{ m with bannerShown := true }, [.surface (.mountBanner (splashText version))], true⟩

def removeBanner (m : Manager) : Change :=
  if m.bannerShown then ⟨{ m with bannerShown := false }, [.surface .unmountBanner], true⟩
  else m.unchanged

end Manager

/-! A backend in memory: what is mounted, the calls so far, and the most surfaces that were ever
mounted at once. -/

structure Headless where
  display : Option (UInt32 × UInt32)
  diagnostic : Option String
  banner : Option String
  keyCapture : Bool
  peakLive : Nat
  calls : List Call
  deriving DecidableEq, Repr, Inhabited

namespace Headless

def new : Headless :=
  { display := none, diagnostic := none, banner := none, keyCapture := false, peakLive := 0,
    calls := [] }

def liveCount (b : Headless) : Nat := b.display.isSome.toNat + b.diagnostic.isSome.toNat

def notePeak (b : Headless) : Headless := { b with peakLive := max b.peakLive b.liveCount }

def perform (b : Headless) (call : Call) : Headless :=
  let b := { b with calls := b.calls ++ [call] }
  match call with
  | .mountDisplay w h => notePeak { b with display := some (w, h) }
  | .mountDiagnostic text => notePeak { b with diagnostic := some text }
  | .unmount .display => { b with display := none }
  | .unmount .diagnostic => { b with diagnostic := none }
  | .mountBanner text => { b with banner := some text }
  | .unmountBanner => { b with banner := none }
  | .captureKeys => { b with keyCapture := true }

end Headless

end Surface

end Chip8Frame
