import Chip8Frame.Proofs.Interlude

/-! Calls of exit functions. A guest, or whoever else gets hold of its object, calls the function in
its exit property, any number of times. While the closure there is alive, the call passes a value to
the run whose channel the closure holds. The calls are read off the history, oldest first; the frame
itself keeps none of them. All that they do to the bridge is to signal on their channels. -/

namespace Chip8Frame.Host

def Session.boot? (s : Session) : Option (Nat × Boot.Config) :=
  s.flight.map fun f => (f.channel, f.config)

end Chip8Frame.Host

namespace Chip8Frame.Browser

open Host (Session)

/-- A value that was passed to the exit function of the run with this channel. -/
structure ExitCall where
  channel : Nat
  value : Value

def passed (cs : List ExitCall) (n : Nat) : List Value :=
  (cs.filter fun c => c.channel = n).map ExitCall.value

def tell (c : Exit.Channel) (v : Value) : Exit.Channel := (c.signal (Frame.exitCode v)).2

/-- What a bridge hears of exit calls. -/
structure Bridge.Hears (cs : List ExitCall) (b b' : Bridge) : Prop where
  exitClosure : b'.exitClosure = b.exitClosure
  boot : b'.session.boot? = b.session.boot?
  opened : b'.session.channels.length = b.session.channels.length
  channel : ∀ n, b'.session.channel n = (passed cs n).foldl tell (b.session.channel n)
  known : ∀ c ∈ cs, c.channel < b.session.channels.length

section Channels

variable {c : Exit.Channel}

theorem passed_append (cs ds : List ExitCall) (n : Nat) :
    passed (cs ++ ds) n = passed cs n ++ passed ds n := by
  simp [passed]

theorem passed_eq_nil {cs : List ExitCall} {n : Nat} (h : ∀ c ∈ cs, c.channel ≠ n) :
    passed cs n = [] := by
  rw [passed, List.filter_eq_nil_iff.mpr (by simpa using h), List.map_nil]

theorem tell_waiting (v : Value) : (tell c v).waiting = c.waiting := by
  unfold tell Exit.Channel.signal
  split <;> rfl

theorem foldl_tell_waiting (vs : List Value) : (vs.foldl tell c).waiting = c.waiting := by
  induction vs generalizing c with
  | nil => rfl
  | cons v vs ih => exact ih.trans (tell_waiting v)

theorem tell_delivered (h : c.waiting = true) (v : Value) :
    (tell c v).delivered = c.delivered.or (some (Frame.exitCode v)) := by
  unfold tell Exit.Channel.signal Exit.Channel.armed
  cases hd : c.delivered with
  | none => simp [h]
  | some code => simp [hd]

/-- Somebody who waits is told the first value and no other. -/
theorem foldl_tell_delivered (h : c.waiting = true) (vs : List Value) :
    (vs.foldl tell c).delivered = c.delivered.or (vs.head?.map Frame.exitCode) := by
  induction vs generalizing c with
  | nil => simp
  | cons v vs ih =>
    rw [List.foldl_cons, ih ((tell_waiting v).trans h), tell_delivered h]
    simp

end Channels

section Bridges

variable {b c d : Bridge} {cs ds : List ExitCall}

theorem Bridge.Hears.refl (b : Bridge) : b.Hears [] b := ⟨rfl, rfl, rfl, fun _ => rfl, by simp⟩

theorem Bridge.Hears.trans (h : b.Hears cs c) (k : c.Hears ds d) : b.Hears (cs ++ ds) d where
  exitClosure := k.exitClosure.trans h.exitClosure
  boot := k.boot.trans h.boot
  opened := k.opened.trans h.opened
  channel n := by rw [k.channel, h.channel, passed_append, List.foldl_append]
  known x hx := by
    rcases List.mem_append.mp hx with hx | hx
    · exact h.known x hx
    · exact h.opened ▸ k.known x hx

end Bridges

namespace Frame

/-- The run that the exit property of a guest belongs to, while the closure in it is alive. -/
def exitChannel? (f : Frame) (guest : Option Nat) : Option Nat := do
  let g ← f.guests[guest.getD (f.guests.length - 1)]?
  let closure ← g.exitClosure
  let h ← f.realm.handler? closure
  h.channel?

def exitCall? (self : Option Nat) (f : Frame) : Action → Option ExitCall
  | .exit guest v => (f.exitChannel? (self.or guest)).map (⟨·, v⟩)
  | _ => none

def exitCalls (self : Option Nat) (f : Frame) : List Action → List ExitCall
  | [] => []
  | a :: as => (exitCall? self f a).toList ++ exitCalls self (act self f a).2 as

def runCalls (f : Frame) (n : Nat) : List ExitCall :=
  match f.guests[n]? with
  | none => []
  | some g =>
      match g.script.runGetterThrows, g.script.runInstead with
      | none, none => exitCalls (some n) (f.record (.runGuest g.arguments)) g.script.atRun
      | _, _ => []

/-- Exit calls are heard and nothing else is done that a boot in flight depends on. -/
structure Hears (cs : List ExitCall) (f g : Frame) : Prop where
  closures : g.realm.closures = f.realm.closures
  nextClosure : g.realm.nextClosure = f.realm.nextClosure
  exits : g.guests.map Guest.exitClosure = f.guests.map Guest.exitClosure
  bridge : ∀ b, f.bridge = some b → ∃ b', g.bridge = some b' ∧ b.Hears cs b'

section Functions

variable {l : Option Nat} {f g k : Frame} {cs ds : List ExitCall}

theorem Hears.refl (f : Frame) : Hears [] f f := ⟨rfl, rfl, rfl, fun b hb => ⟨b, hb, .refl b⟩⟩

theorem Hears.trans (h : Hears cs f g) (k' : Hears ds g k) : Hears (cs ++ ds) f k where
  closures := k'.closures.trans h.closures
  nextClosure := k'.nextClosure.trans h.nextClosure
  exits := k'.exits.trans h.exits
  bridge b hb := by
    obtain ⟨c, hc, hbc⟩ := h.bridge b hb
    obtain ⟨d, hd, hcd⟩ := k'.bridge c hc
    exact ⟨d, hd, hbc.trans hcd⟩

theorem Hears.quietly (h : Hears cs f g) (k' : Hears [] g k) : Hears cs f k := by
  simpa using h.trans k'

theorem Hears.of_kept {r : Realm} (h : Realm.Kept f.realm r) : Hears [] f { f with realm := r } :=
  ⟨h.closures, h.nextClosure, rfl, fun b hb => ⟨b, hb, .refl b⟩⟩

theorem report_hears (f : Frame) (n : Log.Notice) : Hears [] f (f.report n) :=
  .of_kept (.report _ n)

theorem record_hears (f : Frame) (e : Event) : Hears [] f (f.record e) := .of_kept (.record _ e)

theorem spawn_hears (f : Frame) (t : Task) : Hears [] f (f.spawn t) :=
  ⟨rfl, rfl, rfl, fun b hb => ⟨b, hb, .refl b⟩⟩

theorem updateGuest_hears (f : Frame) (n : Nat) {change : Guest → Guest}
    (hc : ∀ g, (change g).exitClosure = g.exitClosure) : Hears [] f (f.updateGuest n change) where
  closures := rfl
  nextClosure := rfl
  exits := by
    apply List.ext_getElem?
    intro i
    simp only [updateGuest, List.getElem?_map, List.getElem?_modify]
    cases f.guests[i]? with
    | none => rfl
    | some g => by_cases hi : n = i <;> simp [hi, hc]
  bridge b hb := ⟨b, hb, .refl b⟩

theorem receive_hears (f : Frame) (data : Value) : Hears [] f (f.receive data) := by
  simp only [receive]
  split
  · exact spawn_hears f _
  · exact report_hears f _

theorem latchError_hears (f : Frame) (message : String) : Hears [] f (f.latchError message) := by
  cases hb : f.bridge with
  | none =>
    simp only [latchError, hb]
    exact .refl f
  | some b =>
    obtain ⟨-, hr⟩ := apply_record b.surface b.session.context.latch message f.realm
    simp only [latchError, hb, Session.recordError, if_true]
    refine ⟨hr.closures, hr.nextClosure, rfl, fun c hc => ?_⟩
    obtain rfl := Option.some.inj (hb.symm.trans hc)
    exact ⟨_, rfl, rfl, rfl, rfl, fun _ => rfl, by simp⟩

theorem foldl_hears {α : Type} {step : Frame → α → Frame}
    (hs : ∀ (g : Frame) (a : α), Hears [] g (step g a)) (f : Frame) (as : List α) :
    Hears [] f (as.foldl step f) := by
  induction as generalizing f with
  | nil => exact .refl f
  | cons a as ih => exact (hs f a).trans (ih (step f a))

theorem fire_hears {handle : Handler → Frame → Frame}
    (hs : ∀ (g : Frame) (a : Handler), Hears [] g (handle a g)) (f : Frame) (type : String) :
    Hears [] f (f.fire type handle).2 := by
  refine foldl_hears ?_ f _
  intro g a
  split
  · exact hs g _
  · exact .refl g

theorem fireMessage_hears (f : Frame) (data : Value) : Hears [] f (f.fireMessage data).2 := by
  refine fire_hears ?_ f _
  intro g a
  split
  · exact receive_hears g data
  · exact .refl g

theorem fireError_hears (f : Frame) (message : String) : Hears [] f (f.fireError message).2 := by
  refine fire_hears ?_ f _
  intro g a
  split
  · exact latchError_hears g message
  · exact .refl g

theorem callExit_cases (f : Frame) (guest : Option Nat) (v : Value) :
    (∃ closure n, f.exitChannel? guest = some n ∧ f.realm.handler? closure = some (.exit n) ∧
        f.callExit guest v = (.ok, f.signalExit n (exitCode v))) ∨
      (f.exitChannel? guest = none ∧ (f.callExit guest v).2 = f) := by
  unfold callExit exitChannel?
  cases hg : f.guests[guest.getD (f.guests.length - 1)]? with
  | none => exact .inr ⟨rfl, rfl⟩
  | some g =>
    cases hx : g.exitClosure with
    | none => exact .inr ⟨by simp [hx], by simp only [hx]⟩
    | some closure =>
      cases hc : f.realm.handler? closure with
      | none => exact .inr ⟨by simp [hx, hc], by simp only [hx, hc]⟩
      | some a =>
        cases a with
        | exit n =>
          refine .inl ⟨closure, n, by simp [hx, hc, Handler.channel?], hc, ?_⟩
          simp only [hx, hc]
        | _ => exact .inr ⟨by simp [hx, hc, Handler.channel?], by simp only [hx, hc]⟩

theorem signalExit_hears (h : f.Tidy l) {closure n : Nat}
    (hc : f.realm.handler? closure = some (.exit n)) (v : Value) :
    Hears [⟨n, v⟩] f (f.signalExit n (exitCode v)) := by
  cases hb : f.bridge with
  | none =>
    simp only [signalExit, hb]
    exact ⟨rfl, rfl, rfl, by simp [hb]⟩
  | some b =>
    have hn : n < b.session.channels.length := Session.channel_lt_of_hook (h.hook hb hc)
    have hs : Hears [⟨n, v⟩] f
        { f with bridge := some { b with session := (b.session.signal n (exitCode v)).2 } } := by
      refine ⟨rfl, rfl, rfl, fun c hc' => ?_⟩
      obtain rfl := Option.some.inj (hb.symm.trans hc')
      refine ⟨_, rfl, rfl, rfl, List.length_set, fun m => ?_, by simpa using hn⟩
      refine Session.channel_signal.trans ?_
      by_cases hm : n = m <;> simp [passed, tell, hm]
    simp only [signalExit, hb]
    split
    · exact hs
    · exact hs.trans (report_hears _ _)

theorem callExit_hears (h : f.Tidy l) (guest : Option Nat) (v : Value) :
    Hears ((f.exitChannel? guest).map (⟨·, v⟩)).toList f (f.callExit guest v).2 := by
  rcases callExit_cases f guest v with ⟨closure, n, hn, hc, he⟩ | ⟨hn, he⟩
  · rw [hn, he]
    exact signalExit_hears h hc v
  · rw [hn, he]
    exact .refl f

theorem act_hears (h : f.Tidy l) (self : Option Nat) (a : Action) :
    Hears (exitCall? self f a).toList f (act self f a).2 := by
  cases a with
  | exit guest v => exact callExit_hears h _ v
  | canvas count nested => exact .of_kept (.addCanvases _ count nested)
  | error message => exact fireError_hears f message
  | message data => exact fireMessage_hears f data
  | key m => exact .refl f

theorem actAll_snd (self : Option Nat) (f : Frame) (as : List Action) :
    (actAll self f as).2 = as.foldl (fun f a => (act self f a).2) f := by
  unfold actAll
  change _ = as.foldl _ (([] : List Answer), f).2
  generalize (([] : List Answer), f) = p
  induction as generalizing p with
  | nil => rfl
  | cons a as ih => exact ih _

theorem actAll_hears (h : f.Tidy l) (self : Option Nat) (as : List Action) :
    Hears (exitCalls self f as) f (actAll self f as).2 := by
  rw [actAll_snd]
  induction as generalizing f with
  | nil => exact .refl f
  | cons a as ih => exact (act_hears h self a).trans (ih (act_goes h self a).tidy)

theorem acted_hears (h : f.Tidy l) (n : Nat) (g : Guest) :
    Hears (exitCalls (some n) (f.record (.runGuest g.arguments)) g.script.atRun) f
      (f.acted n g) := by
  have hrec := record_goes h (.runGuest g.arguments)
  unfold acted
  split
  · next he =>
    rw [List.isEmpty_iff.mp he]
    exact record_hears f _
  · have ha := (record_hears f _).trans (actAll_hears hrec.tidy (some n) g.script.atRun)
    exact ha.quietly (record_hears _ _)

theorem runScript_hears (h : f.Tidy l) (n : Nat) (g : Guest) :
    Hears (exitCalls (some n) (f.record (.runGuest g.arguments)) g.script.atRun) f
      (f.runScript n g).2 := by
  have hrun := acted_hears h n g
  rw [runScript_snd]
  split
  · exact hrun.quietly (spawn_hears _ _)
  · refine Hears.quietly ?_ (spawn_hears _ _)
    exact hrun.quietly (updateGuest_hears _ n fun _ => rfl)
  · exact hrun

theorem runGuest_hears (h : f.Tidy l) (n : Nat) : Hears (f.runCalls n) f (f.runGuest n).2 := by
  simp only [runGuest, runCalls]
  cases f.guests[n]? with
  | none => exact .refl f
  | some g =>
    cases hg : g.script.runGetterThrows with
    | some v =>
      simp only [hg]
      exact .refl f
    | none =>
      cases hi : g.script.runInstead with
      | none =>
        simp only [hg, hi]
        exact runScript_hears h n g
      | some v =>
        cases v <;> simp only [hg, hi] <;> exact .refl f

end Functions

end Frame

end Chip8Frame.Browser
