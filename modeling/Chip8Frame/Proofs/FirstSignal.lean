import Chip8Frame.Exit.Hook

/-! The clones of one exit hook, the cell that they share and its waiting half, in any order of use.
In every order the cell stands for a channel that knows only its hooks and what was delivered, and
the channel delivers the first signal if somebody still waits. Looking at the cell empties it for a
moment, and leaves no trace. -/

namespace Chip8Frame.Exit

/-- The cell stands for the channel. At rest the sending half lies in the cell or is used up, and
while somebody waits it is used up by a delivery or with the last clone. -/
structure Cell.Stands (c : Cell) (k : Channel) : Prop where
  hooks : k.hooks = c.clones
  delivered : k.delivered = c.line.sent
  waiting : k.waiting = c.line.receiver
  resting : c.line.sender = c.filled
  unclaimed : c.clones = 0 → c.filled = false
  unsent : c.line.receiver = true → 0 < c.clones → c.filled = c.line.sent.isNone

namespace Channel

variable {k : Channel}

theorem armed_iff : k.armed = true ↔ k.waiting = true ∧ k.delivered = none := by
  simp [armed]

theorem signal_fst (k : Channel) (code : Int32) : (k.signal code).1 = k.armed := by
  unfold signal
  split
  · next ha => exact ha.symm
  · next ha => simpa using ha

theorem signal_waiting (k : Channel) (code : Int32) : (k.signal code).2.waiting = k.waiting := by
  unfold signal
  split <;> rfl

theorem signal_delivered (k : Channel) (code : Int32) :
    (k.signal code).2.delivered = if k.armed then some code else k.delivered := by
  unfold signal
  split <;> rfl

theorem poll_delivered (k : Channel) : k.poll.2.delivered = k.delivered := by
  unfold poll
  split
  · rfl
  · split <;> rfl

theorem poll_waiting (k : Channel) :
    k.poll.2.waiting = (k.waiting && decide (k.poll.1 = .pending)) := by
  unfold poll
  split
  · simp [dropWait]
  · split <;> simp [dropWait]

/-- What a poll comes to: a delivery goes before the loss of the hooks. -/
theorem poll_iff (k : Channel) :
    (∀ code, k.poll.1 = .code code ↔ k.delivered = some code) ∧
    (k.poll.1 = .dropped ↔ k.hooks = 0 ∧ k.delivered = none) ∧
    (k.poll.1 = .pending ↔ k.hooks ≠ 0 ∧ k.delivered = none) := by
  unfold poll
  cases hd : k.delivered with
  | some code => simp
  | none => by_cases hh : k.hooks = 0 <;> simp [hh]

end Channel

namespace Cell

variable {c : Cell} {k : Channel}

@[simp] theorem look_snd (c : Cell) : c.look.2 = c := rfl

@[simp] theorem describe_snd (c : Cell) : c.describe.2 = c := rfl

theorem signal_empty {code : Int32} (hf : c.filled = false) : c.signal code = (false, c) := by
  obtain ⟨clones, filled, line⟩ := c
  obtain rfl : filled = false := hf
  rfl

theorem signal_unheard {code : Int32} (hf : c.filled = true) (hr : c.line.receiver = false) :
    c.signal code = (false, { c with filled := false, line := c.line.dropSender }) := by
  simp [signal, take, OneShot.send, hf, hr]

theorem signal_heard {code : Int32} (hf : c.filled = true) (hr : c.line.receiver = true) :
    c.signal code =
      (true, { c with
        filled := false
        line := { c.line.dropSender with sent := some code } }) := by
  simp [signal, take, OneShot.send, hf, hr]

theorem signal_clones (c : Cell) (code : Int32) : (c.signal code).2.clones = c.clones := by
  cases hf : c.filled with
  | false => rw [signal_empty hf]
  | true =>
    cases hr : c.line.receiver with
    | false => rw [signal_unheard hf hr]
    | true => rw [signal_heard hf hr]

namespace Stands

theorem opened : Cell.opened.Stands .opened := by
  constructor <;> simp [Cell.opened, Channel.opened, OneShot.opened]

theorem look (h : c.Stands k) (hc : 0 < c.clones) : c.look.1 = k.armed := by
  have hk : k.armed = (c.line.receiver && c.line.sent.isNone) := by
    rw [Channel.armed, h.waiting, h.delivered]
  have hl : c.look.1 = (c.filled && c.line.receiver) := by
    simp [Cell.look, Cell.take, OneShot.canceled]
  rw [hk, hl]
  cases hr : c.line.receiver with
  | false => simp
  | true => simp [h.unsent hr hc]

theorem signal (h : c.Stands k) (hc : 0 < c.clones) (code : Int32) :
    (c.signal code).1 = (k.signal code).1 ∧ (c.signal code).2.Stands (k.signal code).2 := by
  have ha : (c.filled && c.line.receiver) = k.armed := by
    rw [← h.look hc]
    simp [Cell.look, Cell.take, OneShot.canceled]
  cases hf : c.filled with
  | false =>
    have hk : k.signal code = (false, k) := by simp [Channel.signal, ← ha, hf]
    rw [signal_empty hf, hk]
    exact ⟨rfl, h⟩
  | true =>
    cases hr : c.line.receiver with
    | false =>
      have hk : k.signal code = (false, k) := by simp [Channel.signal, ← ha, hr]
      rw [signal_unheard hf hr, hk]
      refine ⟨rfl, h.hooks, h.delivered, h.waiting, rfl, fun _ => rfl, ?_⟩
      simp [OneShot.dropSender, hr]
    | true =>
      have hk : k.signal code = (true, { k with delivered := some code }) := by
        simp [Channel.signal, ← ha, hf, hr]
      rw [signal_heard hf hr, hk]
      exact ⟨rfl, h.hooks, rfl, h.waiting, rfl, fun _ => rfl, fun _ _ => rfl⟩

theorem clone (h : c.Stands k) (hc : 0 < c.clones) : c.clone.Stands k.cloneHook where
  hooks := congrArg (· + 1) h.hooks
  delivered := h.delivered
  waiting := h.waiting
  resting := h.resting
  unclaimed := by simp [Cell.clone]
  unsent hr _ := h.unsent hr hc

theorem drop (h : c.Stands k) (hc : 0 < c.clones) : c.drop.Stands k.dropHook := by
  unfold Cell.drop
  split
  · next hone =>
    constructor
    · simp [Channel.dropHook, h.hooks, hone]
    · cases hf : c.filled <;> simp [Channel.dropHook, OneShot.dropSender, h.delivered]
    · cases hf : c.filled <;> simp [Channel.dropHook, OneShot.dropSender, h.waiting]
    · cases hf : c.filled <;> simp [OneShot.dropSender, h.resting, hf]
    · simp
    · simp
  · next hmore =>
    constructor
    · simp [Channel.dropHook, h.hooks]
    · exact h.delivered
    · exact h.waiting
    · exact h.resting
    · intro hz
      exact absurd hz (by simp only; omega)
    · intro hr _
      exact h.unsent hr hc

theorem dropWait (h : c.Stands k) : c.dropWait.Stands k.dropWait where
  hooks := h.hooks
  delivered := h.delivered
  waiting := rfl
  resting := h.resting
  unclaimed := h.unclaimed
  unsent hr := by simp [Cell.dropWait, OneShot.dropReceiver] at hr

theorem poll (h : c.Stands k) (hw : c.line.receiver = true) :
    c.poll.1 = k.poll.1 ∧ c.poll.2.Stands k.poll.2 := by
  have hdrop := h.dropWait
  cases hs : c.line.sent with
  | some code =>
    have hc : c.poll = (.code code, c.dropWait) := by
      simp [Cell.poll, OneShot.poll, hs, Cell.dropWait]
    have hk : k.poll = (.code code, k.dropWait) := by simp [Channel.poll, h.delivered, hs]
    rw [hc, hk]
    exact ⟨rfl, hdrop⟩
  | none =>
    rcases Nat.eq_zero_or_pos c.clones with hz | hp
    · have hf := h.unclaimed hz
      have hc : c.poll = (.dropped, c.dropWait) := by
        simp [Cell.poll, OneShot.poll, hs, h.resting, hf, Cell.dropWait]
      have hk : k.poll = (.dropped, k.dropWait) := by
        simp [Channel.poll, h.delivered, hs, h.hooks, hz]
      rw [hc, hk]
      exact ⟨rfl, hdrop⟩
    · have hf : c.filled = true := by simp [h.unsent hw hp, hs]
      have hline : c.line.poll = (.pending, c.line) := by
        simp [OneShot.poll, hs, h.resting, hf]
      have hc : c.poll = (.pending, c) := by simp [Cell.poll, hline]
      have hk : k.poll = (.pending, k) := by
        simp [Channel.poll, h.delivered, hs, h.hooks, Nat.ne_of_gt hp]
      rw [hc, hk]
      exact ⟨rfl, h⟩

end Stands

end Cell

namespace HookTable

inductive Action where
  | clone (slot : Nat)
  | drop (slot : Nat)
  | signal (slot : Nat) (code : Int32)
  | look (slot : Nat)
  | describe (slot : Nat)
  | poll
  | dropWait

def Action.looks : Action → Bool
  | look _ | describe _ => true
  | _ => false

def next (t : HookTable) : Action → HookTable
  | .clone slot => (t.clone slot).2
  | .drop slot => (t.drop slot).2
  | .signal slot code => (t.signal slot code).2
  | .look slot => (t.look slot).2
  | .describe slot => (t.describe slot).2
  | .poll => t.poll.2
  | .dropWait => t.dropWait.2

/-- The table after a history, which lists its actions newest first. -/
def after : List Action → HookTable
  | [] => opened
  | a :: as => (after as).next a

theorem after_cons (a : Action) (as : List Action) : after (a :: as) = (after as).next a := rfl

def signals : List Action → List Int32
  | [] => []
  | .signal slot code :: as => if (after as).holds slot then code :: signals as else signals as
  | _ :: as => signals as

/-- The codes of those signals that gave true back. -/
def delivered : List Action → List Int32
  | [] => []
  | .signal slot code :: as =>
      if ((after as).signal slot code).1 = some true then code :: delivered as else delivered as
  | _ :: as => delivered as

def waits : List Action → Bool
  | [] => true
  | .dropWait :: _ => false
  | .poll :: as => waits as && decide ((after as).poll.1 = some .pending)
  | _ :: as => waits as

def channel : List Action → Channel
  | [] => .opened
  | a :: as =>
      match a with
      | .clone slot => if (after as).holds slot then (channel as).cloneHook else channel as
      | .drop slot => if (after as).holds slot then (channel as).dropHook else channel as
      | .signal slot code =>
          if (after as).holds slot then ((channel as).signal code).2 else channel as
      | .poll => if (channel as).waiting then (channel as).poll.2 else channel as
      | .dropWait => (channel as).dropWait
      | .look _ | .describe _ => channel as

section Slots

variable {t : HookTable} {slot : Nat}

theorem holds_iff : t.holds slot = true ↔ t.slots[slot]? = some true := by
  unfold holds
  cases t.slots[slot]? <;> simp

@[simp] theorem look_snd (t : HookTable) (slot : Nat) : (t.look slot).2 = t := by
  unfold look
  split <;> rfl

@[simp] theorem describe_snd (t : HookTable) (slot : Nat) : (t.describe slot).2 = t := by
  unfold describe
  split <;> rfl

theorem next_of_looks {a : Action} (ha : a.looks = true) : t.next a = t := by
  cases a with
  | look slot => exact look_snd t slot
  | describe slot => exact describe_snd t slot
  | _ => simp [Action.looks] at ha

end Slots

/-- How the table, the cell and the history hang together. -/
structure Kept (as : List Action) : Prop where
  stands : (after as).cell.Stands (channel as)
  clones : (after as).cell.clones = (after as).slots.count true
  waiting : (channel as).waiting = waits as
  sent : delivered as = (channel as).delivered.toList
  unsignalled : waits as = true → (delivered as = [] ↔ signals as = [])

namespace Kept

variable {as : List Action} {slot : Nat} {code : Int32}

theorem clones_pos (h : Kept as) (hs : (after as).holds slot = true) :
    0 < (after as).cell.clones := by
  rw [h.clones, List.count_pos_iff]
  exact List.mem_of_getElem? (holds_iff.mp hs)

theorem clones_eq_zero (h : Kept as) :
    (after as).cell.clones = 0 ↔ ∀ slot, (after as).holds slot = false := by
  rw [h.clones, List.count_eq_zero, List.mem_iff_getElem?]
  simp only [not_exists, ← holds_iff, Bool.not_eq_true]

theorem armed (h : Kept as) :
    (channel as).armed = decide (signals as = [] ∧ waits as = true) := by
  unfold Channel.armed
  rw [h.waiting]
  cases hw : waits as with
  | false => simp
  | true =>
    have hd := h.sent
    have hu := h.unsignalled hw
    cases hc : (channel as).delivered with
    | none =>
      rw [hc] at hd
      simp [hu.mp hd]
    | some code =>
      rw [hc] at hd
      have hs : signals as ≠ [] := mt hu.mpr (by simp [hd])
      simp [hs]

theorem signal (h : Kept as) (hs : (after as).holds slot = true) (code : Int32) :
    ((after as).signal slot code).1 = some ((channel as).signal code).1 := by
  simp only [HookTable.signal, hs, if_true, (h.stands.signal (h.clones_pos hs) code).1]

theorem idle {a : Action} (h : Kept as) (ha : (after as).next a = after as)
    (hc : channel (a :: as) = channel as)
    (hd : HookTable.delivered (a :: as) = HookTable.delivered as)
    (hs : signals (a :: as) = signals as) (hw : waits (a :: as) = waits as) : Kept (a :: as) where
  stands := by rw [after_cons, ha, hc]; exact h.stands
  clones := by rw [after_cons, ha]; exact h.clones
  waiting := by rw [hc, hw]; exact h.waiting
  sent := by rw [hc, hd]; exact h.sent
  unsignalled := by rw [hd, hs, hw]; exact h.unsignalled

theorem start : Kept [] where
  stands := Cell.Stands.opened
  clones := rfl
  waiting := rfl
  sent := rfl
  unsignalled _ := Iff.rfl

theorem clone (h : Kept as) (slot : Nat) : Kept (.clone slot :: as) := by
  cases hs : (after as).holds slot with
  | true =>
    have ha : (after as).next (.clone slot) =
        { cell := (after as).cell.clone, slots := (after as).slots ++ [true] } := by
      simp [next, HookTable.clone, hs]
    have hc : channel (.clone slot :: as) = (channel as).cloneHook := by simp [channel, hs]
    constructor
    · rw [after_cons, ha, hc]
      exact h.stands.clone (h.clones_pos hs)
    · rw [after_cons, ha]
      simp [Cell.clone, h.clones]
    · rw [hc]
      exact h.waiting
    · rw [hc]
      exact h.sent
    · exact h.unsignalled
  | false =>
    have ha : (after as).next (.clone slot) =
        { after as with slots := (after as).slots ++ [false] } := by
      simp [next, HookTable.clone, hs]
    have hc : channel (.clone slot :: as) = channel as := by simp [channel, hs]
    constructor
    · rw [after_cons, ha, hc]
      exact h.stands
    · rw [after_cons, ha]
      simp [h.clones]
    · rw [hc]
      exact h.waiting
    · rw [hc]
      exact h.sent
    · exact h.unsignalled

theorem drop (h : Kept as) (slot : Nat) : Kept (.drop slot :: as) := by
  cases hs : (after as).holds slot with
  | true =>
    have hslot := holds_iff.mp hs
    obtain ⟨hlt, hget⟩ := List.getElem?_eq_some_iff.mp hslot
    have ha : (after as).next (.drop slot) =
        { cell := (after as).cell.drop, slots := (after as).slots.set slot false } := by
      simp [next, HookTable.drop, hs]
    have hc : channel (.drop slot :: as) = (channel as).dropHook := by simp [channel, hs]
    have hclones : (after as).cell.drop.clones = (after as).cell.clones - 1 := by
      unfold Cell.drop
      split
      · next hone => simp [hone]
      · rfl
    constructor
    · rw [after_cons, ha, hc]
      exact h.stands.drop (h.clones_pos hs)
    · rw [after_cons, ha, hclones, h.clones, List.count_set hlt, hget]
      simp
    · rw [hc]
      exact h.waiting
    · rw [hc]
      exact h.sent
    · exact h.unsignalled
  | false =>
    exact h.idle (by simp [next, HookTable.drop, hs]) (by simp [channel, hs]) rfl rfl rfl

theorem signalled (h : Kept as) (slot : Nat) (code : Int32) : Kept (.signal slot code :: as) := by
  cases hs : (after as).holds slot with
  | true =>
    have hc : channel (.signal slot code :: as) = ((channel as).signal code).2 := by
      simp [channel, hs]
    have ha : (after as).next (.signal slot code) =
        { after as with cell := ((after as).cell.signal code).2 } := by
      simp [next, HookTable.signal, hs]
    have hd : HookTable.delivered (.signal slot code :: as) =
        if (channel as).armed then code :: HookTable.delivered as else HookTable.delivered as := by
      simp [HookTable.delivered, h.signal hs, Channel.signal_fst]
    constructor
    · rw [after_cons, ha, hc]
      exact (h.stands.signal (h.clones_pos hs) code).2
    · rw [after_cons, ha, Cell.signal_clones]
      exact h.clones
    · rw [hc, Channel.signal_waiting]
      exact h.waiting
    · rw [hc, hd, Channel.signal_delivered, h.sent]
      cases ha : (channel as).armed with
      | true => simp [(Channel.armed_iff.mp ha).2]
      | false => rfl
    · intro hw
      have hne : HookTable.delivered (.signal slot code :: as) ≠ [] := by
        rw [hd, h.armed]
        split
        · simp
        · next hna =>
          have hsig : signals as ≠ [] := fun h0 => hna (by simp [h0, show waits as = true from hw])
          exact mt (h.unsignalled hw).mp hsig
      simp [hne, signals, hs]
  | false =>
    have ha : (after as).signal slot code = (none, after as) := by simp [HookTable.signal, hs]
    exact h.idle (by simp [next, ha]) (by simp [channel, hs]) (by simp [HookTable.delivered, ha])
      (by simp [signals, hs]) rfl

theorem poll (h : Kept as) :
    (after as).poll.1 = if waits as then some (channel as).poll.1 else none := by
  rw [← h.waiting, h.stands.waiting]
  unfold HookTable.poll
  split
  · next hr => simp [(h.stands.poll hr).1]
  · rfl

theorem polled (h : Kept as) : Kept (.poll :: as) := by
  have hr : (after as).cell.line.receiver = waits as := by rw [← h.waiting, h.stands.waiting]
  cases hw : waits as with
  | true =>
    rw [hw] at hr
    have hc : channel (.poll :: as) = (channel as).poll.2 := by simp [channel, h.waiting, hw]
    have ha : (after as).next .poll = { after as with cell := (after as).cell.poll.2 } := by
      simp [next, HookTable.poll, hr]
    constructor
    · rw [after_cons, ha, hc]
      exact (h.stands.poll hr).2
    · rw [after_cons, ha]
      exact h.clones
    · rw [hc, Channel.poll_waiting, h.waiting]
      simp [waits, h.poll, hw]
    · rw [hc, Channel.poll_delivered]
      exact h.sent
    · intro _
      exact h.unsignalled hw
  | false =>
    rw [hw] at hr
    exact h.idle (by simp [next, HookTable.poll, hr]) (by simp [channel, h.waiting, hw]) rfl rfl
      (by simp [waits, hw])

theorem waitDropped (h : Kept as) : Kept (.dropWait :: as) where
  stands := h.stands.dropWait
  clones := h.clones
  waiting := rfl
  sent := h.sent
  unsignalled hw := by cases hw

theorem cons (h : Kept as) (a : Action) : Kept (a :: as) := by
  cases a with
  | clone slot => exact h.clone slot
  | drop slot => exact h.drop slot
  | signal slot code => exact h.signalled slot code
  | look slot => exact h.idle (look_snd _ _) rfl rfl rfl rfl
  | describe slot => exact h.idle (describe_snd _ _) rfl rfl rfl rfl
  | poll => exact h.polled
  | dropWait => exact h.waitDropped

end Kept

theorem kept (as : List Action) : Kept as := by
  induction as with
  | nil => exact .start
  | cons a as ih => exact ih.cons a

theorem after_filter_looks (as : List Action) :
    after (as.filter fun a => !a.looks) = after as := by
  induction as with
  | nil => rfl
  | cons a as ih =>
    cases ha : a.looks with
    | true => rw [List.filter_cons_of_neg (by simp [ha]), after_cons, next_of_looks ha, ih]
    | false => rw [List.filter_cons_of_pos (by simp [ha]), after_cons, after_cons, ih]

/-- What the users of a channel can rely on after the history. -/
structure HookLaw (as : List Action) : Prop where
  signal : ∀ slot code, (after as).holds slot = true →
    ((after as).signal slot code).1 = some (decide (signals as = [] ∧ waits as = true))
  once : (delivered as).length ≤ 1
  /-- A hook is armed when a signal through any of the clones would be delivered now. -/
  armed : ∀ slot slot' code, (after as).holds slot = true → (after as).holds slot' = true →
    ((after as).look slot).1 = ((after as).signal slot' code).1
  described : ∀ slot, (after as).holds slot = true →
    ((after as).describe slot).1 = ((after as).look slot).1.map hookText
  /-- The table, and with it every later answer, is the same without the looks at it. -/
  unseen : after (as.filter fun a => !a.looks) = after as
  poll : waits as = true → ∃ w, (after as).poll.1 = some w ∧
    (∀ code, w = .code code ↔ delivered as = [code]) ∧
    (w = .dropped ↔ (∀ slot, (after as).holds slot = false) ∧ signals as = []) ∧
    (w = .pending ↔ (∃ slot, (after as).holds slot = true) ∧ signals as = [])
  gone : waits as = false → (after as).poll.1 = none

theorem hook_law (as : List Action) : HookLaw as := by
  have h := kept as
  have hsignal : ∀ slot code, (after as).holds slot = true →
      ((after as).signal slot code).1 = some (decide (signals as = [] ∧ waits as = true)) := by
    intro slot code hs
    rw [h.signal hs, Channel.signal_fst, h.armed]
  have hlook : ∀ slot, (after as).holds slot = true →
      ((after as).look slot).1 = some (decide (signals as = [] ∧ waits as = true)) := by
    intro slot hs
    rw [← h.armed, ← h.stands.look (h.clones_pos hs)]
    simp [HookTable.look, hs]
  refine ⟨hsignal, ?_, ?_, ?_, after_filter_looks as, ?_, ?_⟩
  · rw [h.sent]
    cases (channel as).delivered <;> simp
  · intro slot slot' code hs hs'
    rw [hlook slot hs, hsignal slot' code hs']
  · intro slot hs
    simp [HookTable.look, HookTable.describe, hs, Cell.describe]
  · intro hw
    obtain ⟨hcode, hdropped, hpending⟩ := (channel as).poll_iff
    have hsignals : (channel as).delivered = none ↔ signals as = [] := by
      rw [← h.unsignalled hw, h.sent, Option.toList_eq_nil_iff]
    have hcodes : ∀ code, delivered as = [code] ↔ (channel as).delivered = some code := by
      intro code
      rw [h.sent, Option.toList_eq_singleton_iff]
    have hgone : (channel as).hooks = 0 ↔ ∀ slot, (after as).holds slot = false := by
      rw [h.stands.hooks, h.clones_eq_zero]
    have hheld : (channel as).hooks ≠ 0 ↔ ∃ slot, (after as).holds slot = true := by
      rw [Ne, hgone, Classical.not_forall]
      simp only [Bool.not_eq_false]
    refine ⟨(channel as).poll.1, by simp [h.poll, hw], fun code => ?_, ?_, ?_⟩
    · rw [hcode, hcodes]
    · rw [hdropped, hgone, hsignals]
    · rw [hpending, hheld, hsignals]
  · intro hw
    simp [h.poll, hw]

end HookTable

end Chip8Frame.Exit
