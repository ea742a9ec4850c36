import Chip8Frame.Browser.Realm

/-!
Guests of a frame: the runtime class that makes them, the objects it makes, and what each of them is
scripted to do. A guest's object carries the arguments and the exit function that the bridge set,
and two promises, one of its load and one of its run.
-/

namespace Chip8Frame.Browser

inductive Promise where
  | pending
  | resolved
  | rejected (reason : Value)

def Promise.isPending : Promise → Bool
  | pending => true
  | _ => false

def Promise.settle (p : Promise) (outcome : Promise) : Promise :=
  if p.isPending then outcome else p

/-- What a guest or the page around it can do. Without a number the guest is the latest one. -/
inductive Action where
  | exit (guest : Option Nat) (code : Value)
  | canvas (count : Nat) (nested : Bool)
  | error (message : String)
  | message (data : Value)
  | key (modifiers : Surface.Modifiers)

inductive Returned where
  | runPromise
  | settled (outcome : Promise)
  | value

/-- Each field that holds a value names what is thrown at that point. -/
structure GuestScript where
  constructThrows : Option Value
  argumentsThrow : Option Value
  exitThrows : Option Value
  importThrows : Option Value
  load : Promise
  /-- What the load resolves to instead of an object with an instance. -/
  loaded : Option Value
  instanceThrows : Option Value
  runGetterThrows : Option Value
  /-- A value in place of the run function. -/
  runInstead : Option Value
  atRun : List Action
  runThrows : Option Value
  returned : Returned

def GuestScript.plain : GuestScript :=
  { constructThrows := none, argumentsThrow := none, exitThrows := none, importThrows := none
    load := .resolved, loaded := none, instanceThrows := none, runGetterThrows := none
    runInstead := none, atRun := [], runThrows := none, returned := .runPromise }

/-- The global under which the runtime class is looked up. -/
inductive RuntimeClass where
  | scripted
  | throws (value : Value)
  | other (value : Value)

structure Guest where
  script : GuestScript
  arguments : Option (List String)
  /-- The closure in the exit property. -/
  exitClosure : Option Nat
  load : Promise
  run : Promise

def Guest.new (script : GuestScript) : Guest :=
  { script, arguments := none, exitClosure := none, load := script.load, run := .pending }

/-- What the runtime class made: a guest by its number, or nothing if it was a plain function. -/
inductive GuestObject where
  | guest (number : Nat)
  | nothing

end Chip8Frame.Browser
