import Chip8Frame.Browser.Element
import Chip8Frame.Browser.Value
import Chip8Frame.Console.Writer
import Chip8Frame.Surface.Keys
import Chip8Frame.Surface.Manager

/-!
One document load of a browser as the bridge sees it: a window with a document, listeners and the
closures behind them, calls that may fail, a console, and the record of all that happened. A call
that fails throws a value, leaves the realm as it was, and is not recorded.
-/

namespace Chip8Frame.Browser

inductive Answer where
  | nothing
  | ok
  | notFunction
  | listeners (count : Nat)
  | key (listeners : Nat) (prevented : Bool)
  | thrown (value : Value)

inductive Event where
  | listen (target type : String)
  | unlisten (target type : String)
  | append (parent child : String)
  | remove (child : String)
  | setAttribute (element name value : String)
  | removeAttribute (element name : String)
  | blur (element : String)
  | post (parameters : Boot.Parameters) (targetOrigin : String)
  | reload
  | fetch (url : String)
  | instantiateStreaming (arguments : Option (List String)) (exit : Bool)
  | runGuest (arguments : Option (List String))
  | atRun (answers : List Answer)
  | console (line : Console.Line)
  | log (entry : Log.Entry)

/-- What a closure that the bridge made does when it is called. -/
inductive Handler where
  | suppressKeys
  | recordError
  | bootMessage
  | exit (channel : Nat)
  deriving DecidableEq, Repr

inductive Target where
  | window
  | body
  deriving DecidableEq, Repr

def Target.label : Target → String
  | window => "window"
  | body => "body"

structure Listener where
  target : Target
  type : String
  closure : Nat
  deriving DecidableEq, Repr

structure Realm where
  hasWindow : Bool
  hasDocument : Bool
  innerWidth : Value
  body : Option Element
  /-- The element that frames this document; it lies in another one. -/
  frame : Option Element
  /-- Elements that were removed and may still be held. -/
  removed : List Element
  active : Option Nat
  nextElement : Nat
  failures : List (String × Value)
  listeners : List Listener
  /-- The closures that are still alive; calling any other one throws. -/
  closures : List (Nat × Handler)
  nextClosure : Nat
  console : Option Log.Threshold
  events : List Event

/-- A call into the browser: it may throw. -/
abbrev Browsing (α : Type) := ExceptT Value (StateM Realm) α

namespace Realm

def empty : Realm :=
  { hasWindow := true, hasDocument := true, innerWidth := .undefined, body := none, frame := none,
    removed := [], active := none, nextElement := 0, failures := [], listeners := [],
    closures := [], nextClosure := 0, console := none, events := [] }

def record (r : Realm) (e : Event) : Realm := { r with events := r.events ++ [e] }

/-- Only the first console of a realm counts. -/
def openConsole (r : Realm) (threshold : Log.Threshold) : Realm :=
  { r with console := r.console.or (some threshold) }

/-- Without a console entries are recorded as they are. -/
def report (r : Realm) (n : Log.Notice) : Realm :=
  let e := n.entry
  match r.console with
  | none => r.record (.log e)
  | some threshold =>
      if threshold.allows e.level then
        (Console.lines e).foldl (fun r line => r.record (.console line)) r
      else r

/-- The value that a call throws, a failure of this argument before one of the call. -/
def failure? (r : Realm) (call : String) (argument : Option String) : Option Value :=
  (argument.bind fun a => r.failures.lookup (call ++ ":" ++ a)).or (r.failures.lookup call)

/-- All trees of elements: the document's, the framing one's, and removed ones. -/
def trees (r : Realm) : List Element := r.body.toList ++ r.frame.toList ++ r.removed

def node? (r : Realm) (id : Nat) : Option Node :=
  (r.trees.flatMap Element.nodes).find? (·.id = id)

def label (r : Realm) (id : Nat) : String := ((r.node? id).map Node.label).getD ""

def updateNode (r : Realm) (id : Nat) (f : Node → Node) : Realm :=
  { r with
    body := r.body.map (Element.update id f)
    frame := r.frame.map (Element.update id f)
    removed := Element.updateAll id f r.removed }

def first? (r : Realm) (s : Selector) : Option Node :=
  r.body.bind (Element.find? s.selects)

def canvases (r : Realm) : List Node :=
  match r.body with
  | some b => b.nodes.filter (·.tag = "canvas")
  | none => []

/-- Takes an element out of its parent; one without a parent stays where it is. -/
def removeElement (r : Realm) (id : Nat) : Realm :=
  match r.trees.findSome? (Element.below? id) with
  | some e =>
      { r with
        body := r.body.map (Element.remove id)
        frame := r.frame.map (Element.remove id)
        removed := r.removed.map (Element.remove id) ++ [e] }.record (.remove e.node.label)
  | none => r

def appendToBody (r : Realm) (e : Element) : Realm :=
  match r.body with
  | some (.mk node children) =>
      { r with body := some (.mk node (children ++ [e])) }.record
        (.append node.label e.node.label)
  | none => r

def newNode (r : Realm) (tag : String) : Node × Realm :=
  (Node.new r.nextElement tag, { r with nextElement := r.nextElement + 1 })

def addCanvas (r : Realm) : Realm :=
  let (n, r) := r.newNode "canvas"
  r.appendToBody (.mk n [])

def addCanvasTo (r : Realm) (parent : Node) : Realm :=
  let (n, r) := r.newNode "canvas"
  { r with body := r.body.map (Element.append parent.id (.mk n [])) }.record
    (.append parent.label n.label)

/-- A guest adds canvases to the body, or to a new element in it. Nothing happens without a body or
while appending fails. -/
def addCanvases (r : Realm) (count : Nat) (nested : Bool) : Realm :=
  if r.body.isNone || (r.failure? "append_child" none).isSome then r
  else if nested then
    let (box, r) := r.newNode "div"
    (List.replicate count ()).foldl (fun r _ => r.addCanvasTo box) (r.appendToBody (.mk box []))
  else (List.replicate count ()).foldl (fun r _ => r.addCanvas) r

def newClosure (r : Realm) (h : Handler) : Nat × Realm :=
  (r.nextClosure,
    { r with closures := r.closures ++ [(r.nextClosure, h)], nextClosure := r.nextClosure + 1 })

def dropClosure (r : Realm) (n : Nat) : Realm :=
  { r with closures := r.closures.filter (·.1 ≠ n) }

def handler? (r : Realm) (n : Nat) : Option Handler := r.closures.lookup n

def unlisten (r : Realm) (l : Listener) : Realm :=
  { r with listeners := r.listeners.filter (· ≠ l) }.record (.unlisten l.target.label l.type)

def listenersFor (r : Realm) (target : Target) (type : String) : List Listener :=
  r.listeners.filter fun l => l.target = target ∧ l.type = type

def pressKey (r : Realm) (m : Surface.Modifiers) : Answer :=
  if r.body.isNone then .nothing
  else
    let called := r.listenersFor .body "keydown"
    let handled := called.any fun l => r.handler? l.closure = some .suppressKeys
    .key called.length (handled && m.suppressesDefault)

end Realm

/-! Calls that may throw. -/

namespace Browsing

def attempt (call : String) (argument : Option String) : Browsing Unit := do
  match (← get).failure? call argument with
  | some v => throw v
  | none => return ()

def createElement (tag : String) : Browsing Node := do
  attempt "create_element" (some tag)
  modifyGet fun r => r.newNode tag

def setAttributeOf (n : Node) (name value : String) : Browsing Node := do
  attempt "set_attribute" (some name)
  modify fun r => r.record (.setAttribute n.label name value)
  return n.setAttribute name value

def appendToBody (e : Element) : Browsing Unit := do
  attempt "append_child" none
  modify fun r => r.appendToBody e

def setAttribute (id : Nat) (name value : String) : Browsing Unit := do
  attempt "set_attribute" (some name)
  modify fun r => (r.record (.setAttribute (r.label id) name value)).updateNode id
    (·.setAttribute name value)

def removeAttribute (id : Nat) (name : String) : Browsing Unit := do
  attempt "remove_attribute" (some name)
  modify fun r => (r.record (.removeAttribute (r.label id) name)).updateNode id
    (·.removeAttribute name)

def queryCanvases : Browsing (List Node) := do
  attempt "query_selector_all" none
  return (← get).canvases

def query (selector : String) : Browsing (Option Node) := do
  attempt "query_selector" (some selector)
  match Selector.read? selector with
  | some s => return (← get).first? s
  | none => throw (.error ("'" ++ selector ++ "' is not a valid selector."))

def listen (l : Listener) : Browsing Unit := do
  attempt "add_event_listener" (some l.type)
  modify fun r =>
    { r with listeners := r.listeners ++ [l] }.record (.listen l.target.label l.type)

def blur (id : Nat) : Browsing Unit := do
  attempt "blur" none
  modify fun r => r.record (.blur (r.label id))

def post (p : Boot.Parameters) (targetOrigin : String) : Browsing Unit := do
  attempt "post_message" none
  modify fun r => r.record (.post p targetOrigin)

def reload : Browsing Unit := do
  attempt "reload" none
  modify fun r => r.record .reload

def frameElement : Browsing (Option Node) := do
  attempt "frame_element" none
  return (← get).frame.map Element.node

def innerWidth : Browsing Value := do
  attempt "inner_width" none
  return (← get).innerWidth

end Browsing

end Chip8Frame.Browser
