import Chip8Frame.Browser.Frame

/-! Histories of a hosting frame. Entry calls, turns of tasks, promises that settle, guests and
pages that act, and changes of the page come in any order. A history lists what happened newest
first. -/

namespace Chip8Frame.Browser

/-- The page may change in any way; listeners, closures and the console belong to the bridge. -/
def Realm.changed (r page : Realm) : Realm :=
  { page with
    listeners := r.listeners
    closures := r.closures
    nextClosure := r.nextClosure
    console := r.console
    events := r.events }

/-- A document load before any entry call, with the guests that it will see. -/
structure Opening where
  realm : Realm
  runtime : RuntimeClass
  scripts : List GuestScript
  unheard : realm.listeners = []
  unclosed : realm.closures = []

namespace Frame

inductive Happening where
  | boot (options : Value)
  | listen (options : Value)
  | restart
  | turn (position : Nat)
  | load (guest : Option Nat) (outcome : Promise)
  | runDone (guest : Option Nat) (outcome : Promise)
  | act (action : Action)
  | change (page : Realm)

def leave (f : Frame) (i : Nat) : Option Task → Frame
  | some t => { f with tasks := f.tasks.set i t }
  | none => { f with tasks := f.tasks.eraseIdx i }

def turn (f : Frame) (i : Nat) : Frame :=
  match f.tasks[i]? with
  | some t => (f.pollTask t).2.2.leave i (f.pollTask t).2.1
  | none => f

def next (f : Frame) : Happening → Frame
  | .boot options => (f.bootFromAttributes options).2
  | .listen options => (f.listenForMessages options).2
  | .restart => f.restart.2
  | .turn i => f.turn i
  | .load guest outcome => f.settleLoad guest outcome
  | .runDone guest outcome => (f.settleRun guest outcome).2
  | .act a => (act none f a).2
  | .change page => { f with realm := f.realm.changed page }

def start (p : Opening) : Frame := .new p.realm p.runtime p.scripts

def after (p : Opening) : List Happening → Frame
  | [] => start p
  | x :: h => (after p h).next x

theorem after_cons (p : Opening) (x : Happening) (h : List Happening) :
    after p (x :: h) = (after p h).next x := rfl

theorem turn_of_some {f : Frame} {i : Nat} {t : Task} (h : f.tasks[i]? = some t) :
    f.turn i = (f.pollTask t).2.2.leave i (f.pollTask t).2.1 := by
  simp only [turn, h]

theorem turn_of_none {f : Frame} {i : Nat} (h : f.tasks[i]? = none) : f.turn i = f := by
  simp only [turn, h]

/-! Whatever runs the tasks does so in turns. -/

theorem pollFrom_turns (fuel i : Nat) (f : Frame) :
    ∃ is : List Nat, (pollFrom fuel i f).2 = is.foldl turn f := by
  induction fuel generalizing i f with
  | zero => exact ⟨[], rfl⟩
  | succ fuel ih =>
    simp only [pollFrom]
    cases ht : f.tasks[i]? with
    | none => exact ⟨[], rfl⟩
    | some t =>
      have hturn := turn_of_some ht
      rcases hp : f.pollTask t with ⟨moved, left, g⟩
      rw [hp] at hturn
      simp only [hp]
      cases left with
      | some u =>
        obtain ⟨is, his⟩ := ih (i + 1) (g.leave i (some u))
        refine ⟨i :: is, ?_⟩
        rw [List.foldl_cons, hturn]
        exact his
      | none =>
        obtain ⟨is, his⟩ := ih i (g.leave i none)
        refine ⟨i :: is, ?_⟩
        rw [List.foldl_cons, hturn]
        exact his

theorem settleFor_turns (passes polls : Nat) (f : Frame) :
    ∃ is : List Nat, settleFor passes polls f = is.foldl turn f := by
  induction passes generalizing f with
  | zero => exact ⟨[], rfl⟩
  | succ passes ih =>
    unfold settleFor
    obtain ⟨is, his⟩ := pollFrom_turns polls 0 f
    rcases hp : pollFrom polls 0 f with ⟨moved, g⟩
    obtain rfl : g = is.foldl turn f := by rw [← his, hp]
    cases moved with
    | false => exact ⟨is, rfl⟩
    | true =>
      obtain ⟨js, hjs⟩ := ih (is.foldl turn f)
      exact ⟨is ++ js, by rw [List.foldl_append]; exact hjs⟩

theorem after_turns (p : Opening) (h : List Happening) (is : List Nat) :
    after p ((is.map .turn).reverse ++ h) = is.foldl turn (after p h) := by
  induction is generalizing h with
  | nil => rfl
  | cons i is ih =>
    have hi := ih (.turn i :: h)
    simpa [List.foldl_cons, after_cons, next] using hi

/-- Running the tasks until none moves is one of the histories. -/
theorem after_settle (p : Opening) (h : List Happening) :
    ∃ is : List Nat, after p ((is.map .turn).reverse ++ h) = (after p h).settle := by
  obtain ⟨is, his⟩ := settleFor_turns (6 * (after p h).commandBound + 6)
    (6 * (after p h).commandBound + 6) (after p h)
  exact ⟨is, (after_turns p h is).trans his.symm⟩

end Frame

end Chip8Frame.Browser
