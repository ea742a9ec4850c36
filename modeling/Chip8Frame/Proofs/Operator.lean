import Chip8Frame.Control.Recording
import Chip8Frame.Proofs.FrameCalls

/-! What the commands of an operator come to. A send reaches the frame by a row of calls, cut after
the first that fails; a restart is the latest delivered send again; a hard reset is one call. The
history before a command decides what a restart sends, and nothing else. -/

namespace Chip8Frame.Control

open Boot (Parameters)

def Mark.event? {φ : Type} : Mark φ → Option FrameEvent
  | .command _ => none
  | .blur => some .blur
  | .call made _ _ => some (.call made)

def Mark.failure? {φ : Type} : Mark φ → Option String
  | .call _ (.error reason) _ => some reason
  | _ => none

/-- What reaches the frame where nothing fails. -/
def Selection.plan (s : Selection) (t : Transport) : List FrameEvent :=
  .blur :: match Theme.read s.theme, t with
    | .error _, _ => []
    | .ok theme, .attributes =>
        Parameters.attributeNames.zipWith (fun name value => .call (.setAttribute name value))
          [s.program, s.speed, theme.foreground, theme.background] ++ [.call .recreate]
    | .ok theme, .message =>
        [.call (.post ⟨s.program, s.speed, theme.foreground, theme.background⟩)]

/-- How a send goes that reaches the frame by a row of calls, the oldest first. -/
structure Delivery {φ : Type} (t : Transport) (s : Selection) (row : List (Mark φ))
    (result : Except Error Unit) : Prop where
  calls : row.map Mark.event? <+: (s.plan t).map some
  /-- Nothing comes after a call that fails. -/
  cut : ∀ m ∈ row.dropLast, m.failure? = none
  complete : (∀ m ∈ row, m.failure? = none) → row.map Mark.event? = (s.plan t).map some
  result : result = match row.findSome? Mark.failure? with
    | some reason => .error (.frame reason)
    | none => (Theme.read s.theme).map fun _ => ()

section Commands

variable {φ : Type} [HostFrame φ]

/-- What a command does with a frame, oldest first. -/
def Controller.contacts (c : Controller) (command : Command) (f : φ) : List (Mark φ) :=
  (c.obey command ({ frame := f, diary := [] } : Watched φ)).2.2.diary.reverse

variable (t : Transport) (f : φ)

/-- The selections whose send succeeded, the latest first; a restart sends the latest again. -/
def sent : List Command → List Selection
  | [] => []
  | command :: h =>
      match command, ((unwatched t f h).1.obey command (unwatched t f h).2).1 with
      | .send s, .ok () => s :: sent h
      | _, _ => sent h

/-- What the next command comes to, whichever it is, with controller and frame as the history left
them. -/
structure OperatorLaw (h : List Command) (c : Controller) (g : φ) : Prop where
  diary : ∀ command, (after t f (command :: h)).2.diary =
    (c.contacts command g).reverse ++ .command command :: (after t f h).2.diary
  send : ∀ s, Delivery t s (c.contacts (.send s) g) (c.obey (.send s) g).1
  last : c.last = (sent t f h).head?
  nothing : (c.obey .restart g).1 = .error .nothingToRestart ↔ sent t f h = []
  silent : sent t f h = [] →
    c.contacts .restart g = [] ∧ c.obey .restart g = (.error .nothingToRestart, c, g)
  again : ∀ s, (sent t f h).head? = some s →
    c.contacts .restart g = c.contacts (.send s) g ∧ c.obey .restart g = c.obey (.send s) g ∧
      (c.obey .restart g).2.1 = c
  reset : ∃ answer before, c.contacts .hardReset g = [.call .recreate answer before] ∧
    (c.obey .hardReset g).1 = answer.mapError .frame ∧ (c.obey .hardReset g).2.1 = c

end Commands

section Diaries

variable {φ : Type} [HostFrame φ] {c : Controller} {s : Selection}

theorem performAll_diary (calls : List FrameCall) (f : φ) (d : List (Mark φ)) :
    performAll calls ({ frame := f, diary := d } : Watched φ) =
      ((performAll calls ({ frame := f, diary := [] } : Watched φ)).1,
        { frame := (performAll calls ({ frame := f, diary := [] } : Watched φ)).2.frame
          diary := (performAll calls ({ frame := f, diary := [] } : Watched φ)).2.diary ++ d }) := by
  induction calls generalizing f d with
  | nil => rfl
  | cons call calls ih =>
    rcases hp : HostFrame.perform call f with ⟨reason | ⟨⟩, g⟩
    · simp [performAll, HostFrame.perform, hp]
    · have hd := ih g (.call call (.ok ()) f :: d)
      have hn := ih g [.call call (.ok ()) f]
      simp only [performAll, HostFrame.perform, hp]
      rw [hd, hn]
      simp

theorem sendBoot_diary (c : Controller) (s : Selection) (f : φ) (d : List (Mark φ)) :
    (c.sendBoot s ({ frame := f, diary := d } : Watched φ)).2.2.diary =
      (c.sendBoot s ({ frame := f, diary := [] } : Watched φ)).2.2.diary ++ d := by
  cases hp : s.parameters with
  | error e =>
    simp only [Controller.sendBoot, hp]
    rfl
  | ok p =>
    have hb := performAll_diary (deliveryCalls c.transport p) (HostFrame.blur f) (.blur :: d)
    have hn := performAll_diary (deliveryCalls c.transport p) (HostFrame.blur f) [.blur]
    simp only [Controller.sendBoot, hp, HostFrame.blur, hb, hn]
    rcases performAll (deliveryCalls c.transport p)
      ({ frame := HostFrame.blur f, diary := [] } : Watched φ) with ⟨_ | _, w⟩ <;> simp

theorem obey_diary (c : Controller) (command : Command) (f : φ) (d : List (Mark φ)) :
    (c.obey command ({ frame := f, diary := d } : Watched φ)).2.2.diary =
      (c.contacts command f).reverse ++ d := by
  rw [Controller.contacts, List.reverse_reverse]
  cases command with
  | send s => exact sendBoot_diary c s f d
  | restart =>
    cases hl : c.last with
    | none => simp [Controller.obey, Controller.restart, hl]
    | some s =>
      simp only [Controller.obey, Controller.restart, hl]
      exact sendBoot_diary c s f d
  | hardReset =>
    have hd := performAll_diary [.recreate] (HostFrame.note .resetRequested f) d
    simp only [Controller.obey, Controller.hardReset, HostFrame.note, hd]

end Diaries

section Rows

variable {φ : Type} [HostFrame φ] {c : Controller} {s : Selection}

theorem Made.row {w v : Watched φ} {calls : List FrameCall} (h : Made w calls v) :
    ∃ row : List (Mark φ), v.diary = row.reverse ++ w.diary ∧
      row.map Mark.event? = calls.map (some ∘ FrameEvent.call) ∧
        ∀ m ∈ row, m.failure? = none := by
  induction h with
  | nil => exact ⟨[], by simp⟩
  | @cons w g k call calls first _ ih =>
    obtain ⟨row, hd, he, hn⟩ := ih
    refine ⟨.call call (.ok ()) w.frame :: row, ?_, by simp [he, Mark.event?], ?_⟩
    · rw [hd, (Watched.perform_eq first).2]
      simp
    · intro m hm
      rcases List.mem_cons.mp hm with rfl | hm
      · rfl
      · exact hn m hm

theorem Selection.plan_eq {p : Parameters} (hp : s.parameters = .ok p) (t : Transport) :
    s.plan t = .blur :: (deliveryCalls t p).map .call := by
  rcases s.parameters_cases with ⟨theme, hr, hs⟩ | ⟨e, hr, hs⟩
  · obtain rfl := Except.ok.inj (hp.symm.trans hs)
    cases t <;> simp [plan, hr, deliveryCalls, Parameters.toAttributes, Parameters.attributeNames]
  · rw [hp] at hs
    cases hs

theorem Sent.delivery {f : φ} {result : Except Error Unit × Controller × Watched φ}
    (h : Sent c s ({ frame := f, diary := [] } : Watched φ) result) :
    Delivery c.transport s result.2.2.diary.reverse result.1 := by
  cases h with
  | @refused e he =>
    rcases s.parameters_cases with ⟨theme, -, hp⟩ | ⟨e', hr, hp⟩
    · rw [he] at hp
      cases hp
    · obtain rfl := Except.error.inj (he.symm.trans hp)
      have hplan : s.plan c.transport = [.blur] := by simp only [Selection.plan, hr]
      have hrow : (HostFrame.blur ({ frame := f, diary := [] } : Watched φ)).diary.reverse =
          [.blur] := rfl
      rw [hrow]
      exact ⟨by simp [hplan, Mark.event?], by simp, fun _ => by simp [hplan, Mark.event?],
        by simp [Mark.failure?, hr, Except.map]⟩
  | @delivered p k hp made =>
    obtain ⟨row, hd, he, hn⟩ := made.row
    have hrow : (HostFrame.note (.bootSent s.program c.transport) k).diary.reverse =
        .blur :: row := by
      rw [Watched.diary_note, hd]
      simp [HostFrame.blur]
    have hall : ∀ m ∈ (.blur :: row : List (Mark φ)), m.failure? = none := by
      simpa [Mark.failure?] using hn
    have hplan : (.blur :: row : List (Mark φ)).map Mark.event? =
        (s.plan c.transport).map some := by
      rw [Selection.plan_eq hp, List.map_cons, List.map_cons, List.map_map, he]
      rfl
    obtain ⟨theme, hr⟩ : ∃ theme, Theme.read s.theme = .ok theme := by
      rcases s.parameters_cases with ⟨theme, hr, -⟩ | ⟨e, -, hs⟩
      · exact ⟨theme, hr⟩
      · rw [hp] at hs
        cases hs
    rw [hrow]
    refine ⟨hplan ▸ List.prefix_rfl, fun m hm => hall m (List.dropLast_subset _ hm),
      fun _ => hplan, ?_⟩
    rw [List.findSome?_eq_none_iff.mpr hall, hr]
    rfl
  | @stopped p done call reason k hp broken =>
    obtain ⟨rest, hcalls⟩ := broken.here
    obtain ⟨g, made, hfail⟩ := broken.fails
    obtain ⟨row, hd, he, hn⟩ := made.row
    have hrow : k.diary.reverse = .blur :: row ++ [.call call (.error reason) g.frame] := by
      rw [(Watched.perform_eq hfail).2, hd]
      simp [HostFrame.blur]
    have hall : ∀ m ∈ (.blur :: row : List (Mark φ)), m.failure? = none := by
      simpa [Mark.failure?] using hn
    rw [hrow]
    refine ⟨⟨rest.map (some ∘ .call), ?_⟩, ?_, ?_, ?_⟩
    · rw [Selection.plan_eq hp, hcalls]
      simp [he, Mark.event?, Function.comp_def]
    · rw [List.dropLast_concat]
      exact hall
    · intro hnone
      have hx := hnone (.call call (.error reason) g.frame) (by simp)
      cases hx
    · rw [List.findSome?_append, List.findSome?_eq_none_iff.mpr hall]
      rfl

end Rows

section Histories

variable {φ : Type} [HostFrame φ] (t : Transport) (f : φ)

theorem obey_transport (c : Controller) (command : Command) (g : φ) :
    (c.obey command g).2.1.transport = c.transport := by
  have hsend : ∀ s, (c.sendBoot s g).2.1.transport = c.transport := by
    intro s
    have hs := Sent.of_sendBoot c s g
    generalize c.sendBoot s g = result at hs
    cases hs <;> rfl
  cases command with
  | send s => exact hsend s
  | restart =>
    simp only [Controller.obey, Controller.restart]
    split
    · exact hsend _
    · rfl
  | hardReset => rfl

theorem unwatched_transport (h : List Command) : (unwatched t f h).1.transport = t := by
  induction h with
  | nil => rfl
  | cons command h ih => exact (obey_transport _ command _).trans ih

theorem sendBoot_last (c : Controller) (s : Selection) (g : φ) :
    (c.sendBoot s g).2.1 = match (c.sendBoot s g).1 with
      | .ok () => { c with last := some s }
      | .error _ => c := by
  have hs := Sent.of_sendBoot c s g
  generalize c.sendBoot s g = result at hs
  cases hs <;> rfl

section Restart

variable {c : Controller} {s : Selection} (g : φ)

theorem sendBoot_again (hl : c.last = some s) : (c.sendBoot s g).2.1 = c := by
  rw [sendBoot_last]
  split
  · rw [← hl]
  · rfl

theorem restart_of_last (hl : c.last = some s) : c.obey .restart g = c.obey (.send s) g := by
  simp only [Controller.obey, Controller.restart, hl]

theorem restart_of_none (hl : c.last = none) :
    c.obey .restart g = (.error .nothingToRestart, c, g) := by
  simp only [Controller.obey, Controller.restart, hl]

theorem restart_kept (c : Controller) : (c.obey .restart g).2.1 = c := by
  cases hl : c.last with
  | none => rw [restart_of_none g hl]
  | some s =>
    rw [restart_of_last g hl]
    exact sendBoot_again g hl

end Restart

theorem last_eq_sent (h : List Command) : (unwatched t f h).1.last = (sent t f h).head? := by
  induction h with
  | nil => rfl
  | cons command h ih =>
    generalize hc : (unwatched t f h).1 = c at ih
    generalize hg : (unwatched t f h).2 = g
    have hu : (unwatched t f (command :: h)).1 = (c.obey command g).2.1 := by
      rw [unwatched, hc, hg]
    simp only [hu, sent, hc, hg]
    cases command with
    | send s =>
      have hl := sendBoot_last c s g
      simp only [Controller.obey] at hl ⊢
      rw [hl]
      rcases hr : (c.sendBoot s g).1 with e | ⟨⟩
      · simpa using ih
      · simp
    | restart =>
      rw [restart_kept g c]
      exact ih
    | hardReset => exact ih

theorem Theme.read_ne_nothing (token : String) : Theme.read token ≠ .error .nothingToRestart := by
  simp only [Theme.read]
  split
  · nofun
  · split <;> nofun

theorem sendBoot_ne_nothing (c : Controller) (s : Selection) (g : φ) :
    (c.sendBoot s g).1 ≠ .error .nothingToRestart := by
  have hs := Sent.of_sendBoot c s g
  generalize c.sendBoot s g = result at hs
  cases hs with
  | @refused e he =>
    rintro ⟨rfl⟩
    rcases s.parameters_cases with ⟨theme, -, hp⟩ | ⟨e', hr, hp⟩
    · rw [he] at hp
      cases hp
    · obtain rfl := Except.error.inj (he.symm.trans hp)
      exact Theme.read_ne_nothing s.theme hr
  | delivered => nofun
  | stopped => nofun

theorem contacts_send (c : Controller) (s : Selection) (g : φ) :
    Delivery c.transport s (c.contacts (.send s) g) (c.obey (.send s) g).1 := by
  have hs := (Sent.of_sendBoot c s ({ frame := g, diary := [] } : Watched φ)).delivery
  have hframe := congrArg Prod.fst
    (Watched.sendBoot_frame c s ({ frame := g, diary := [] } : Watched φ))
  simp only [Controller.contacts, Controller.obey]
  rw [hframe]
  exact hs

theorem contacts_hardReset (c : Controller) (g : φ) :
    ∃ answer before, c.contacts .hardReset g = [.call .recreate answer before] ∧
      (c.obey .hardReset g).1 = answer.mapError .frame ∧ (c.obey .hardReset g).2.1 = c := by
  have hr := c.hardReset_eq g rfl
  have hw := c.hardReset_eq ({ frame := g, diary := [] } : Watched φ) rfl
  refine ⟨_, HostFrame.note .resetRequested g, ?_, congrArg Prod.fst hr,
    congrArg (fun x => x.2.1) hr⟩
  rw [Controller.contacts, Controller.obey, hw]
  rfl

theorem diary_cons (command : Command) (h : List Command) :
    (after t f (command :: h)).2.diary =
      ((unwatched t f h).1.contacts command (unwatched t f h).2).reverse ++
        .command command :: (after t f h).2.diary := by
  rw [unwatched_eq t f h, ← obey_diary, after]
  rfl

theorem operator_law (h : List Command) :
    OperatorLaw t f h (unwatched t f h).1 (unwatched t f h).2 where
  diary command := diary_cons t f command h
  send s := by
    have hs := contacts_send (unwatched t f h).1 s (unwatched t f h).2
    rwa [unwatched_transport] at hs
  last := last_eq_sent t f h
  nothing := by
    have hl := last_eq_sent t f h
    constructor
    · intro hr
      cases hs : sent t f h with
      | nil => rfl
      | cons s rest =>
        rw [hs] at hl
        rw [restart_of_last _ hl] at hr
        exact absurd hr (sendBoot_ne_nothing _ s _)
    · intro hs
      rw [hs] at hl
      rw [restart_of_none _ hl]
  silent hs := by
    have hl := last_eq_sent t f h
    rw [hs] at hl
    refine ⟨?_, restart_of_none _ hl⟩
    rw [Controller.contacts, restart_of_none _ hl]
    rfl
  again s hs := by
    have hl := (last_eq_sent t f h).trans hs
    refine ⟨?_, restart_of_last _ hl, restart_kept _ _⟩
    rw [Controller.contacts, Controller.contacts, restart_of_last _ hl]
  reset := contacts_hardReset _ _

end Histories

end Chip8Frame.Control
