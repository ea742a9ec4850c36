/-!
Exit hooks and the cell behind them. All clones of a hook share one cell. It holds the sending half
of a one-shot channel until a signal takes it out; to see whether the hook is armed the half is
taken out as well, and put back. The waiting half is the other end of the channel.
-/

namespace Chip8Frame.Exit

inductive Wait where
  | pending
  | dropped
  | code (c : Int32)
  deriving DecidableEq, Repr

def hookText (armed : Bool) : String :=
  "ExitHook \x7b armed: " ++ (if armed then "true" else "false") ++ " \x7d"

/-- A channel for one code: which of its halves exist, and what was sent. -/
structure OneShot where
  sender : Bool
  receiver : Bool
  sent : Option Int32
  deriving DecidableEq, Repr

namespace OneShot

def opened : OneShot := { sender := true, receiver := true, sent := none }

def dropSender (c : OneShot) : OneShot := { c with sender := false }

def dropReceiver (c : OneShot) : OneShot := { c with receiver := false }

/-- Sending uses the sending half up, also when nobody is there to receive. -/
def send (c : OneShot) (code : Int32) : Bool × OneShot :=
  if c.receiver then (true, { c.dropSender with sent := some code }) else (false, c.dropSender)

def canceled (c : OneShot) : Bool := !c.receiver

def poll (c : OneShot) : Wait × OneShot :=
  match c.sent with
  | some code => (.code code, c.dropReceiver)
  | none => if c.sender then (.pending, c) else (.dropped, c.dropReceiver)

end OneShot

/-- What the clones of a hook share. -/
structure Cell where
  clones : Nat
  /-- Whether the sending half lies in the cell. -/
  filled : Bool
  line : OneShot
  deriving DecidableEq, Repr

namespace Cell

def opened : Cell := { clones := 1, filled := true, line := .opened }

/-- Empties the cell; gives whether the sending half was in it. -/
def take (c : Cell) : Bool × Cell := (c.filled, { c with filled := false })

def put (c : Cell) (half : Bool) : Cell := { c with filled := half }

def signal (c : Cell) (code : Int32) : Bool × Cell :=
  let (half, c) := c.take
  if half then
    let (sent, line) := c.line.send code
    (sent, { c with line })
  else (false, c)

def look (c : Cell) : Bool × Cell :=
  let (half, c) := c.take
  (half && !c.line.canceled, c.put half)

def describe (c : Cell) : String × Cell :=
  let (armed, c) := c.look
  (hookText armed, c)

def clone (c : Cell) : Cell := { c with clones := c.clones + 1 }

/-- The cell goes with its last clone, and the sending half with it if it is still there. -/
def drop (c : Cell) : Cell :=
  if c.clones = 1 then
    { clones := 0, filled := false, line := if c.filled then c.line.dropSender else c.line }
  else { c with clones := c.clones - 1 }

def poll (c : Cell) : Wait × Cell :=
  let (w, line) := c.line.poll
  (w, { c with line })

def dropWait (c : Cell) : Cell := { c with line := c.line.dropReceiver }

end Cell

/-- A cell with the hooks that share it in a table: a slot is emptied when its hook is dropped. -/
structure HookTable where
  cell : Cell
  slots : List Bool
  deriving DecidableEq, Repr

namespace HookTable

def opened : HookTable := { cell := .opened, slots := [true] }

def holds (t : HookTable) (slot : Nat) : Bool := (t.slots[slot]?).getD false

/-- Appends a clone of a hook, or an empty slot if that hook is gone. -/
def clone (t : HookTable) (slot : Nat) : Bool × HookTable :=
  if t.holds slot then (true, { cell := t.cell.clone, slots := t.slots ++ [true] })
  else (false, { t with slots := t.slots ++ [false] })

def drop (t : HookTable) (slot : Nat) : Bool × HookTable :=
  if t.holds slot then (true, { cell := t.cell.drop, slots := t.slots.set slot false })
  else (false, t)

def signal (t : HookTable) (slot : Nat) (code : Int32) : Option Bool × HookTable :=
  if t.holds slot then
    let (sent, cell) := t.cell.signal code
    (some sent, { t with cell })
  else (none, t)

def look (t : HookTable) (slot : Nat) : Option Bool × HookTable :=
  if t.holds slot then
    let (armed, cell) := t.cell.look
    (some armed, { t with cell })
  else (none, t)

def describe (t : HookTable) (slot : Nat) : Option String × HookTable :=
  if t.holds slot then
    let (text, cell) := t.cell.describe
    (some text, { t with cell })
  else (none, t)

def armed? (t : HookTable) (slot : Nat) : Option Bool := (t.look slot).1

def hookText? (t : HookTable) (slot : Nat) : Option String := (t.describe slot).1

/-- Nothing to poll once the waiting half is gone. -/
def poll (t : HookTable) : Option Wait × HookTable :=
  if t.cell.line.receiver then
    let (w, cell) := t.cell.poll
    (some w, { t with cell })
  else (none, t)

def dropWait (t : HookTable) : Bool × HookTable :=
  (t.cell.line.receiver, { t with cell := t.cell.dropWait })

end HookTable

/-! A channel told by what can be observed of it: how many clones of the hook there are, the code
that was delivered, and whether somebody waits. -/

structure Channel where
  /-- Hook clones that still exist. -/
  hooks : Nat
  /-- The code of the one signal that was delivered. -/
  delivered : Option Int32
  /-- Whether the waiting half still exists; it ends when it resolves. -/
  waiting : Bool
  deriving DecidableEq, Repr, Inhabited

namespace Channel

def opened : Channel := { hooks := 1, delivered := none, waiting := true }

def armed (c : Channel) : Bool := c.waiting && c.delivered.isNone

def signal (c : Channel) (code : Int32) : Bool × Channel :=
  if c.armed then (true, { c with delivered := some code }) else (false, c)

def cloneHook (c : Channel) : Channel := { c with hooks := c.hooks + 1 }

def dropHook (c : Channel) : Channel := { c with hooks := c.hooks - 1 }

def dropWait (c : Channel) : Channel := { c with waiting := false }

/-- One poll of the waiting half, which must still exist. -/
def poll (c : Channel) : Wait × Channel :=
  match c.delivered with
  | some code => (.code code, c.dropWait)
  | none => if c.hooks = 0 then (.dropped, c.dropWait) else (.pending, c)

def hookText (c : Channel) : String := Exit.hookText c.armed

end Channel

end Chip8Frame.Exit
