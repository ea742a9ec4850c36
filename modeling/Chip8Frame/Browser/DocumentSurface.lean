import Chip8Frame.Browser.Realm

/-!
The surface backend of a document. The guest makes and sizes its own canvas, so a display is only
reserved here; its removal takes every canvas out of the document. The diagnostic and the banner
are text blocks at the end of the body.
-/

namespace Chip8Frame.Browser

structure DocumentSurface where
  display : Option (UInt32 × UInt32)
  /-- Elements of the mounted blocks. -/
  diagnostic : Option Nat
  banner : Option Nat
  /-- Closure of the key listener. -/
  keyClosure : Option Nat
  deriving DecidableEq, Repr

namespace DocumentSurface

def diagnosticId : String := "chip8-diagnostic"
def bannerId : String := "chip8-banner"
def unselectable : String := "user-select: none; -webkit-user-select: none"

def new : DocumentSurface :=
  { display := none, diagnostic := none, banner := none, keyClosure := none }

/-- Adds a block of text that cannot be selected; gives its element. -/
def addTextBlock (id text : String) : Browsing Nat := do
  let block ← Browsing.createElement "pre"
  let block := { block.setAttribute "id" id with text := some text }
  let block ← Browsing.setAttributeOf block "unselectable" "on"
  let block ← Browsing.setAttributeOf block "style" unselectable
  Browsing.appendToBody (.mk block [])
  return block.id

def removeCanvases : Browsing Nat := do
  let canvases ← Browsing.queryCanvases
  modify fun r => canvases.foldl (fun r n => r.removeElement n.id) r
  return canvases.length

def keyListener (closure : Nat) : Listener :=
  { target := .body, type := "keydown", closure }

def mountDiagnostic (s : DocumentSurface) (text : String) (r : Realm) : DocumentSurface × Realm :=
  match addTextBlock diagnosticId text r with
  | (.ok id, r) => ({ s with diagnostic := some id }, r)
  | (.error v, r) => (s, r.report (.diagnosticFailed v.inDebug))

def mountBanner (s : DocumentSurface) (text : String) (r : Realm) : DocumentSurface × Realm :=
  match addTextBlock bannerId text r with
  | (.ok id, r) => ({ s with banner := some id }, r)
  | (.error v, r) => (s, r.report (.bannerFailed v.inDebug))

def unmountDisplay (s : DocumentSurface) (r : Realm) : DocumentSurface × Realm :=
  let s := { s with display := none }
  match removeCanvases r with
  | (.ok count, r) => (s, r.report (.canvasesRemoved count))
  | (.error v, r) => (s, r.report (.canvasRemovalFailed v.inDebug))

def removeBlock (r : Realm) : Option Nat → Realm
  | some id => r.removeElement id
  | none => r

/-- A second listener takes the place of the first, whose closure ends. -/
def captureKeys (s : DocumentSurface) (r : Realm) : DocumentSurface × Realm :=
  let (closure, r) := r.newClosure .suppressKeys
  match Browsing.listen (keyListener closure) r with
  | (.ok (), r) =>
      let r := match s.keyClosure with
        | some old => r.dropClosure old
        | none => r
      ({ s with keyClosure := some closure }, r)
  | (.error v, r) => (s, (r.report (.keyCaptureFailed v.inDebug)).dropClosure closure)

def perform (s : DocumentSurface) (call : Surface.Call) (r : Realm) : DocumentSurface × Realm :=
  match call with
  | .mountDisplay w h =>
      ({ s with display := some (w, h) }, r.report (.displayReserved w h))
  | .mountDiagnostic text => s.mountDiagnostic text r
  | .unmount .display => s.unmountDisplay r
  | .unmount .diagnostic => ({ s with diagnostic := none }, removeBlock r s.diagnostic)
  | .mountBanner text => s.mountBanner text r
  | .unmountBanner => ({ s with banner := none }, removeBlock r s.banner)
  | .captureKeys => s.captureKeys r

def apply (s : DocumentSurface) (effects : List Effect) (r : Realm) : DocumentSurface × Realm :=
  effects.foldl
    (fun (s, r) e => match e with
      | .note n => (s, r.report n)
      | .surface call => s.perform call r)
    (s, r)

/-- The end of a surface takes its key listener away and nothing else. -/
def drop (s : DocumentSurface) (r : Realm) : Realm :=
  match s.keyClosure with
  | some closure => (r.unlisten (keyListener closure)).dropClosure closure
  | none => r

end DocumentSurface

end Chip8Frame.Browser
