import Chip8Frame.Control.Controller

/-! Histories of a controller. A frame is watched by a diary, which has the operator's commands and
every call that reaches the frame, with its answer. The frame can be any state machine, so its calls
fail in any pattern. -/

namespace Chip8Frame.Control

inductive Command where
  | send (s : Selection)
  | restart
  | hardReset
  deriving DecidableEq, Repr

def Controller.obey {φ : Type} [HostFrame φ] (c : Controller) (command : Command) (f : φ) :
    Except Error Unit × Controller × φ :=
  match command with
  | .send s => c.sendBoot s f
  | .restart => c.restart f
  | .hardReset => c.hardReset f

inductive Mark (φ : Type) where
  | command (command : Command)
  | blur
  | call (call : FrameCall) (answer : Except String Unit) (before : φ)

/-- A frame and its diary, newest entry first. -/
structure Watched (φ : Type) where
  frame : φ
  diary : List (Mark φ)

namespace Watched

variable {φ : Type}

def mark (w : Watched φ) (m : Mark φ) : Watched φ := { w with diary := m :: w.diary }

@[simp] theorem frame_mark (w : Watched φ) (m : Mark φ) : (w.mark m).frame = w.frame := rfl

variable [HostFrame φ]

instance : HostFrame (Watched φ) where
  note n w := { w with frame := HostFrame.note n w.frame }
  blur w := { frame := HostFrame.blur w.frame, diary := .blur :: w.diary }
  perform call w :=
    ((HostFrame.perform call w.frame).1,
      { frame := (HostFrame.perform call w.frame).2
        diary := .call call (HostFrame.perform call w.frame).1 w.frame :: w.diary })

@[simp] theorem frame_note (n : Log.Notice) (w : Watched φ) :
    (HostFrame.note n w).frame = HostFrame.note n w.frame := rfl

@[simp] theorem diary_note (n : Log.Notice) (w : Watched φ) :
    (HostFrame.note n w).diary = w.diary := rfl

@[simp] theorem frame_blur (w : Watched φ) :
    (HostFrame.blur w).frame = HostFrame.blur w.frame := rfl

theorem perform_eq {w v : Watched φ} {call : FrameCall} {answer : Except String Unit}
    (h : HostFrame.perform call w = (answer, v)) :
    HostFrame.perform call w.frame = (answer, v.frame) ∧
      v.diary = .call call answer w.frame :: w.diary := by
  obtain ⟨rfl, rfl⟩ := Prod.mk.inj h
  exact ⟨rfl, rfl⟩

/-! The diary is only looked at: without it, everything is the same. -/

theorem performAll_frame (calls : List FrameCall) (w : Watched φ) :
    performAll calls w.frame = ((performAll calls w).1, (performAll calls w).2.frame) := by
  induction calls generalizing w with
  | nil => rfl
  | cons call calls ih =>
    rcases hp : HostFrame.perform call w with ⟨answer, v⟩
    have hf := (perform_eq hp).1
    cases answer with
    | error reason => simp only [performAll, hp, hf]
    | ok => simp only [performAll, hp, hf, ih v]

theorem sendBoot_frame (c : Controller) (s : Selection) (w : Watched φ) :
    c.sendBoot s w.frame =
      ((c.sendBoot s w).1, (c.sendBoot s w).2.1, (c.sendBoot s w).2.2.frame) := by
  cases hp : s.parameters with
  | error e => simp [Controller.sendBoot, hp]
  | ok p =>
    have hf := performAll_frame (deliveryCalls c.transport p) (HostFrame.blur w)
    rcases h : performAll (deliveryCalls c.transport p) (HostFrame.blur w) with ⟨answer, v⟩
    rw [h] at hf
    simp only [frame_blur] at hf
    cases answer <;> simp [Controller.sendBoot, hp, h, hf]

theorem obey_frame (c : Controller) (command : Command) (w : Watched φ) :
    c.obey command w.frame =
      ((c.obey command w).1, (c.obey command w).2.1, (c.obey command w).2.2.frame) := by
  cases command with
  | send s => exact sendBoot_frame c s w
  | restart =>
    cases hl : c.last with
    | none => simp [Controller.obey, Controller.restart, hl]
    | some s => simp only [Controller.obey, Controller.restart, hl, sendBoot_frame c s w]
  | hardReset =>
    have hf := performAll_frame [.recreate] (HostFrame.note .resetRequested w)
    simp only [frame_note] at hf
    simp [Controller.obey, Controller.hardReset, hf]

end Watched

section Histories

variable {φ : Type} [HostFrame φ] (t : Transport) (f : φ)

/-- Controller and frame after some commands, the newest first. -/
def after : List Command → Controller × Watched φ
  | [] => (.new t, { frame := f, diary := [] })
  | command :: h => ((after h).1.obey command ((after h).2.mark (.command command))).2

def unwatched : List Command → Controller × φ
  | [] => (.new t, f)
  | command :: h => ((unwatched h).1.obey command (unwatched h).2).2

theorem unwatched_eq (h : List Command) :
    unwatched t f h = ((after t f h).1, (after t f h).2.frame) := by
  induction h with
  | nil => rfl
  | cons command h ih =>
    have hf := ((after t f h).2.mark (.command command)).obey_frame (after t f h).1 command
    rw [Watched.frame_mark] at hf
    simp only [unwatched, after, ih, hf]

end Histories

/-! What a command comes to. -/

section Calls

variable {φ : Type} [HostFrame φ]

inductive Made : φ → List FrameCall → φ → Prop where
  | nil (f : φ) : Made f [] f
  | cons {f g k : φ} {call : FrameCall} {calls : List FrameCall}
      (first : HostFrame.perform call f = (.ok (), g)) (rest : Made g calls k) :
      Made f (call :: calls) k

theorem Made.last {f k : φ} {calls : List FrameCall} {call : FrameCall}
    (h : Made f (calls ++ [call]) k) :
    ∃ g, Made f calls g ∧ HostFrame.perform call g = (.ok (), k) := by
  induction calls generalizing f with
  | nil =>
    cases h with
    | cons first remaining =>
      cases remaining
      exact ⟨f, .nil f, first⟩
  | cons x xs ih =>
    cases h with
    | cons first remaining =>
      obtain ⟨g, hx, hk⟩ := ih remaining
      exact ⟨g, .cons first hx, hk⟩

theorem Made.diary {w v : Watched φ} {calls : List FrameCall}
    (h : Made w calls v) : w.diary <:+ v.diary := by
  induction h with
  | nil => exact List.suffix_rfl
  | cons first _ ih =>
    rw [(Watched.perform_eq first).2] at ih
    exact (List.suffix_cons _ _).trans ih

theorem Made.frame {w v : Watched φ} {calls : List FrameCall} (h : Made w calls v) :
    Made w.frame calls v.frame := by
  induction h with
  | nil => exact .nil _
  | cons first _ ih => exact .cons (Watched.perform_eq first).1 ih

structure Broken (f : φ) (calls done : List FrameCall) (call : FrameCall) (reason : String)
    (k : φ) : Prop where
  here : ∃ rest, calls = done ++ call :: rest
  fails : ∃ g, Made f done g ∧ HostFrame.perform call g = (.error reason, k)

theorem Broken.at_last {f k : φ} {calls done : List FrameCall} {call last : FrameCall}
    {reason : String} (h : Broken f (calls ++ [last]) done call reason k) :
    done = calls ∧ call = last ∨ done <+: calls ∧ call ∈ calls := by
  obtain ⟨rest, hr⟩ := h.here
  rcases List.append_eq_append_iff.mp hr with ⟨xs, hd, hl⟩ | ⟨xs, hc, hl⟩
  · cases xs with
    | nil => exact .inl ⟨by simpa using hd, (List.cons.inj hl).1.symm⟩
    | cons x xs => simp at hl
  · cases xs with
    | nil => exact .inl ⟨by simpa using hc.symm, (List.cons.inj hl).1⟩
    | cons x xs =>
      rw [(List.cons.inj hl).1]
      exact .inr ⟨⟨x :: xs, hc.symm⟩, by simp [hc]⟩

theorem performAll_cases (calls : List FrameCall) (f : φ) :
    (∃ k, Made f calls k ∧ performAll calls f = (.ok (), k)) ∨
      ∃ done call reason k, Broken f calls done call reason k ∧
        performAll calls f = (.error (.frame reason), k) := by
  induction calls generalizing f with
  | nil => exact .inl ⟨f, .nil f, rfl⟩
  | cons call calls ih =>
    rcases hp : HostFrame.perform call f with ⟨reason | ⟨⟩, g⟩
    · exact .inr ⟨[], call, reason, g, ⟨⟨calls, rfl⟩, f, .nil f, hp⟩, by simp only [performAll, hp]⟩
    · have hall : performAll (call :: calls) f = performAll calls g := by simp only [performAll, hp]
      rcases ih g with ⟨k, hm, hk⟩ | ⟨done, failed, reason, k, ⟨⟨rest, hr⟩, m, hm, hf⟩, hk⟩
      · exact .inl ⟨k, .cons hp hm, hall.trans hk⟩
      · have hc : call :: calls = call :: done ++ failed :: rest := by rw [hr, List.cons_append]
        exact .inr ⟨call :: done, failed, reason, k, ⟨⟨rest, hc⟩, m, .cons hp hm, hf⟩,
          hall.trans hk⟩

theorem Selection.parameters_cases (s : Selection) :
    (∃ theme, Theme.read s.theme = .ok theme ∧ s.parameters = .ok {
        program := some s.program
        speed := some s.speed
        foreground := some theme.foreground
        background := some theme.background }) ∨
      ∃ e, Theme.read s.theme = .error e ∧ s.parameters = .error e := by
  unfold Selection.parameters
  cases h : Theme.read s.theme with
  | ok theme => exact .inl ⟨theme, rfl, rfl⟩
  | error e => exact .inr ⟨e, rfl, rfl⟩

/-- All ways in which a send can go. -/
inductive Sent (c : Controller) (s : Selection) (f : φ) :
    Except Error Unit × Controller × φ → Prop where
  | refused {e : Error} (unreadable : s.parameters = .error e) :
      Sent c s f (.error e, c, HostFrame.blur f)
  | delivered {p : Boot.Parameters} {k : φ} (readable : s.parameters = .ok p)
      (made : Made (HostFrame.blur f) (deliveryCalls c.transport p) k) :
      Sent c s f
        (.ok (), { c with last := some s }, HostFrame.note (.bootSent s.program c.transport) k)
  | stopped {p : Boot.Parameters} {done : List FrameCall} {call : FrameCall} {reason : String}
      {k : φ} (readable : s.parameters = .ok p)
      (broken : Broken (HostFrame.blur f) (deliveryCalls c.transport p) done call reason k) :
      Sent c s f (.error (.frame reason), c, k)

theorem Sent.of_sendBoot (c : Controller) (s : Selection) (f : φ) :
    Sent c s f (c.sendBoot s f) := by
  unfold Controller.sendBoot
  cases hp : s.parameters with
  | error e => exact .refused hp
  | ok p =>
    rcases performAll_cases (deliveryCalls c.transport p) (HostFrame.blur f) with
      ⟨k, hm, hk⟩ | ⟨done, call, reason, k, hb, hk⟩
    · simp only [hk]
      exact .delivered hp hm
    · simp only [hk]
      exact .stopped hp hb

theorem Controller.hardReset_eq (c : Controller) (f : φ) {answer : Except String Unit} {k : φ}
    (h : HostFrame.perform .recreate (HostFrame.note .resetRequested f) = (answer, k)) :
    c.hardReset f = (answer.mapError .frame, c, k) := by
  cases answer <;> simp only [hardReset, performAll, h] <;> rfl

end Calls

end Chip8Frame.Control
