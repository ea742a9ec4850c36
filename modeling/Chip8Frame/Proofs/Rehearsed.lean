import Chip8Frame.Host.Rehearsal
import Chip8Frame.Proofs.Undropped

/-! Rehearsals are histories. Whatever scripts do, and whoever else uses hooks and latches
meanwhile, the session of a rehearsal goes through enabled events, and its backend shows what they
show. Each hook that a rehearsal holds, or keeps for a launch that is pending, is there to be
used. -/

namespace Chip8Frame.Host

/-- Enabled events, newest first, lead a session and its page to others. -/
inductive Session.Plays (s : Session) (b : Surface.Headless) :
    List Session.Event → Session → Surface.Headless → Prop where
  | refl : Plays s b [] s b
  | tail {es u page e} (h : Plays s b es u page) (he : u.Enabled e) :
      Plays s b (e :: es) (u.next e).session ((e.backend page).replay (u.next e).effects)

namespace Session.Plays

variable {s u v : Session} {b c d : Surface.Headless} {es fs : List Session.Event}

theorem trans (h : Plays s b es u c) (k : Plays u c fs v d) : Plays s b (fs ++ es) v d := by
  induction k with
  | refl => exact h
  | tail _ he ih => exact .tail ih he

theorem possible {o : Boot.Options} (hp : Possible o es)
    (h : Plays (after o es) (shown o es) fs u c) :
    Possible o (fs ++ es) ∧ after o (fs ++ es) = u ∧ shown o (fs ++ es) = c := by
  induction h with
  | refl => exact ⟨hp, rfl, rfl⟩
  | tail _ he ih =>
    obtain ⟨hp', rfl, rfl⟩ := ih
    exact ⟨⟨he, hp'⟩, rfl, rfl⟩

end Session.Plays

namespace Rehearsal

open Session (next_step)

/-- A rehearsal goes on by events of its session, and its backend shows them. -/
def Leads (r r' : Rehearsal) : Prop :=
  ∃ es, Session.Plays r.session r.backend es r'.session r'.backend

/-- The hooks in use exist, and the loose one is not held. -/
structure Secure (loose : Option Nat) (r : Rehearsal) : Prop where
  held : ∀ n ∈ r.held, 0 < (r.session.channel n).hooks
  loose : ∀ n ∈ loose, 0 < (r.session.channel n).hooks ∧ n ∉ r.held

/-- The boot in flight and the pending launch stay as they are. -/
structure Within (loose : Option Nat) (r r' : Rehearsal) : Prop where
  leads : r.Leads r'
  secure : r'.Secure loose
  flight : r'.session.flight = r.session.flight
  launching : r'.launching = r.launching

structure Resting (r : Rehearsal) : Prop where
  secure : r.Secure none
  launching : r.launching = none
  grounded : r.session.flight = none

structure Paused (r : Rehearsal) : Prop where
  secure : r.Secure (r.launching.map fun p => p.launch.channel)
  stage : r.session.stage = some (if r.launching.isSome then .launching else .running)

/-- A boot goes on, and it is over exactly if it has a result. -/
structure Drives (r : Rehearsal) (result : Option Result) (r' : Rehearsal) : Prop where
  leads : r.Leads r'
  ends : result.isSome = true → r'.Resting
  waits : result.isSome = false → r'.Paused

section Relations

variable {l l' : Option Nat} {r r' r'' : Rehearsal} {result : Option Result}

theorem Leads.refl (r : Rehearsal) : r.Leads r := ⟨[], .refl⟩

theorem Leads.trans (h : r.Leads r') (k : r'.Leads r'') : r.Leads r'' := by
  obtain ⟨es, he⟩ := h
  obtain ⟨fs, hf⟩ := k
  exact ⟨fs ++ es, he.trans hf⟩

theorem Leads.of_event {e : Session.Event} (he : r.session.Enabled e)
    (hs : r'.session = (r.session.next e).session)
    (hb : r'.backend = (e.backend r.backend).replay (r.session.next e).effects) : r.Leads r' := by
  refine ⟨[e], ?_⟩
  rw [hs, hb]
  exact .tail .refl he

theorem Secure.of_hooks (h : r.Secure l) (hh : r'.held = r.held)
    (hc : ∀ n, (r'.session.channel n).hooks = (r.session.channel n).hooks) : r'.Secure l where
  held n hn := by
    rw [hc]
    exact h.held n (hh ▸ hn)
  loose n hn := by
    rw [hc, hh]
    exact h.loose n hn

theorem Within.refl (h : r.Secure l) : Within l r r := ⟨.refl r, h, rfl, rfl⟩

theorem Within.trans (h : Within l r r') (k : Within l' r' r'') : Within l' r r'' where
  leads := h.leads.trans k.leads
  secure := k.secure
  flight := k.flight.trans h.flight
  launching := k.launching.trans h.launching

theorem Within.stage (h : Within l r r') : r'.session.stage = r.session.stage := by
  rw [Session.stage, h.flight]
  rfl

theorem Within.drives (h : Within l r r') (k : Drives r' result r'') : Drives r result r'' :=
  ⟨h.leads.trans k.leads, k.ends, k.waits⟩

end Relations

/-! Hooks and latches. -/

section Actions

variable {l : Option Nat} {r : Rehearsal}

@[simp] theorem apply_backend (r : Rehearsal) (effects : List Effect) :
    (r.apply effects).backend = r.backend.replay effects := by
  induction effects generalizing r with
  | nil => rfl
  | cons e effects ih => cases e <;> exact ih _

theorem apply_rest (r : Rehearsal) (effects : List Effect) :
    (r.apply effects).session = r.session ∧ (r.apply effects).scripts = r.scripts ∧
      (r.apply effects).launching = r.launching ∧ (r.apply effects).held = r.held := by
  induction effects generalizing r with
  | nil => exact ⟨rfl, rfl, rfl, rfl⟩
  | cons e effects ih => cases e <;> exact ih _

theorem emit_within (h : r.Secure l) (e : Event) : Within l r (r.emit e) :=
  ⟨.refl r, ⟨h.held, h.loose⟩, rfl, rfl⟩

theorem held?_mem {hook : Option Nat} {n : Nat} (h : r.held? hook = some n) : n ∈ r.held := by
  simpa using (Option.filter_eq_some_iff.mp h).2

def advance (r : Rehearsal) (t : Turn) : Rehearsal :=
  apply { r with session := t.session } t.effects

@[simp] theorem advance_session (r : Rehearsal) (t : Turn) : (r.advance t).session = t.session :=
  (apply_rest _ _).1

@[simp] theorem advance_launching (r : Rehearsal) (t : Turn) :
    (r.advance t).launching = r.launching := (apply_rest _ _).2.2.1

@[simp] theorem advance_held (r : Rehearsal) (t : Turn) : (r.advance t).held = r.held :=
  (apply_rest _ _).2.2.2

theorem advance_leads {e : Session.Event} (he : r.session.Enabled e)
    (hb : e.backend r.backend = r.backend) : r.Leads (r.advance (r.session.next e)) :=
  .of_event he (advance_session _ _) (by rw [advance, apply_backend, hb])

theorem advance_secure (h : r.Secure l) {e : Session.Event} (he : r.session.Enabled e)
    (hp : ∀ l, (r.session.next e).progress ≠ .launch l) (hc : ∀ n, e ≠ .cloneHook n)
    (hd : ∀ n, e ≠ .dropHook n) : (r.advance (r.session.next e)).Secure l := by
  refine h.of_hooks (advance_held _ _) fun n => ?_
  rw [advance_session]
  exact (next_step he).hooks_kept hp hc hd n

theorem advance_within (h : r.Secure l) {e : Session.Event} (hb : e.bystander = true)
    (he : r.session.Enabled e) (hc : ∀ n, e ≠ .cloneHook n) (hd : ∀ n, e ≠ .dropHook n) :
    Within l r (r.advance (r.session.next e)) where
  leads := advance_leads he (by cases e <;> first | rfl | cases hb)
  secure := advance_secure h he ((next_step he).no_launch (Session.Event.command?_of_bystander hb))
    hc hd
  flight := by
    rw [advance_session]
    exact ((next_step he).bystander hb).1
  launching := advance_launching _ _

theorem unhook_leads {n : Nat} (hn : 0 < (r.session.channel n).hooks) :
    r.Leads { r with session := r.session.dropHook n } :=
  .of_event (e := .dropHook n) hn rfl rfl

theorem channel_dropHook_of_ne {s : Session} {m n : Nat} (h : n ≠ m) :
    (s.dropHook n).channel m = s.channel m := by
  rw [Session.channel_dropHook, if_neg h]

theorem release_within (h : r.Secure l) {n : Nat} (hn : n ∈ r.held) :
    Within l r (r.release n) where
  leads := unhook_leads (h.held n hn)
  secure := by
    refine ⟨fun m hm => ?_, fun m hm => ?_⟩
    · obtain ⟨hm, hne⟩ := List.mem_filter.mp hm
      have hne : n ≠ m := fun he => of_decide_eq_true hne he.symm
      show 0 < ((r.session.dropHook n).channel m).hooks
      rw [channel_dropHook_of_ne hne]
      exact h.held m hm
    · obtain ⟨hlive, hout⟩ := h.loose m hm
      have hne : n ≠ m := fun he => hout (he ▸ hn)
      refine ⟨?_, fun hx => hout (List.mem_filter.mp hx).1⟩
      show 0 < ((r.session.dropHook n).channel m).hooks
      rwa [channel_dropHook_of_ne hne]
  flight := rfl
  launching := rfl

theorem act_within (h : r.Secure l) (own : Option Nat) (ho : ∀ n ∈ own, n ∈ l) (a : Action) :
    Within l r (act own r a).2 := by
  have hlive : ∀ hook n, own.or (r.held? hook) = some n → 0 < (r.session.channel n).hooks := by
    intro hook n hn
    rcases Option.or_eq_some_iff.mp hn with hn | ⟨-, hn⟩
    · exact (h.loose n (ho n hn)).1
    · exact h.held n (held?_mem hn)
  cases a with
  | signal hook code =>
    simp only [act]
    split
    · next n hn => exact advance_within (e := .signal n code) h rfl (hlive hook n hn) nofun nofun
    · exact .refl h
  | armed | describe | errored => exact .refl h
  | release hook =>
    simp only [act]
    split
    · next n hn => exact release_within h (held?_mem hn)
    · exact .refl h
  | error latch message =>
    simp only [act]
    generalize latch.getD r.session.retired.length = n
    by_cases hn : n ≤ r.session.retired.length
    · exact advance_within (e := .recordError n message) h rfl hn nofun nofun
    · have hnone : r.session.retired[n]? = none := by simp; omega
      have hne : n ≠ r.session.retired.length := by omega
      simp only [Session.recordError, hne, if_false, hnone]
      exact .refl h

theorem actAll_within (h : r.Secure l) (own : Option Nat) (ho : ∀ n ∈ own, n ∈ l)
    (actions : List Action) :
    Within l r (actAll own r actions).2 := by
  unfold actAll
  change Within l (([] : List Answer), r).2 _
  replace h : (([] : List Answer), r).2.Secure l := h
  generalize (([] : List Answer), r) = x at h ⊢
  induction actions generalizing x with
  | nil => exact .refl h
  | cons a actions ih =>
    have ha := act_within h own ho a
    exact ha.trans (ih (x.1 ++ [(act own x.2 a).1], (act own x.2 a).2) ha.secure)

theorem perform_within {n : Nat} (h : r.Secure (some n)) (actions : List Action)
    (event : List Answer → Event) : Within (some n) r (r.perform n actions event) := by
  simp only [perform]
  split
  · exact .refl h
  · have ha := actAll_within h (some n) (fun _ hm => hm) actions
    exact ha.trans (emit_within ha.secure _)

theorem settleHook_within {n : Nat} (h : r.Secure (some n)) (hold : Bool) :
    Within none r (r.settleHook n hold) := by
  obtain ⟨hn, hout⟩ := h.loose n rfl
  cases hold with
  | true =>
    refine ⟨.refl r, ⟨fun m hm => ?_, nofun⟩, rfl, rfl⟩
    rcases List.mem_append.mp hm with hm | hm
    · exact h.held m hm
    · obtain rfl := List.mem_singleton.mp hm
      exact hn
  | false =>
    refine ⟨unhook_leads hn, ⟨fun m hm => ?_, nofun⟩, rfl, rfl⟩
    have hne : n ≠ m := fun he => hout (he ▸ hm)
    show 0 < ((r.session.dropHook n).channel m).hooks
    rw [channel_dropHook_of_ne hne]
    exact h.held m hm

end Actions

/-! Boots. -/

section Boots

variable {l : Option Nat} {r r' : Rehearsal}

theorem Paused.of_within (h : r.Paused)
    (k : Within (r.launching.map fun p => p.launch.channel) r r') : r'.Paused where
  secure := k.launching ▸ k.secure
  stage := by
    rw [k.stage, k.launching]
    exact h.stage

theorem Resting.of_within (h : r.Resting) (k : Within none r r') : r'.Resting :=
  ⟨k.secure, k.launching.trans h.launching, k.flight.trans h.grounded⟩

theorem conclude_drives (h : r.Secure none) (hl : r.launching = none) {e : Session.Event}
    (he : r.session.Enabled e) (hx : e.leads = true) (hn : e ≠ .launched (.ok ()))
    (hp : ∀ l, (r.session.next e).progress ≠ .launch l) :
    Drives r (r.conclude (r.session.next e)).1 (r.conclude (r.session.next e)).2 := by
  have hs := next_step he
  have hleads : r.Leads (r.advance (r.session.next e)) :=
    advance_leads he (by cases e <;> first | rfl | cases hx)
  have hsecure : (r.advance (r.session.next e)).Secure none := by
    refine advance_secure h he hp ?_ ?_ <;> rintro n rfl <;> cases hx
  have hlaunching := (advance_launching r (r.session.next e)).trans hl
  simp only [conclude]
  rcases hs.launch_or_done hx hn with ⟨l, hd⟩ | ⟨result, hd⟩ | hd
  · exact absurd hd (hp l)
  · rw [hd]
    refine ⟨hleads, fun _ => ⟨hsecure, hlaunching, ?_⟩, nofun⟩
    exact (congrArg Session.flight (advance_session _ _)).trans (hs.landed_of_done hd)
  · obtain ⟨-, f, -, -, hf⟩ := hs.running_of_pending hx hd
    rw [hd]
    refine ⟨hleads, nofun, fun _ => ⟨?_, ?_⟩⟩
    · show (r.advance _).Secure ((r.advance _).launching.map _)
      rw [hlaunching]
      exact hsecure
    · show (r.advance _).session.stage = some (if (r.advance _).launching.isSome then _ else _)
      rw [hlaunching, advance_session, Session.stage, hf]
      rfl

theorem answer_drives (h : r.Secure none) (hl : r.launching = none) {e : Session.Event}
    (he : r.session.Enabled e) (hx : e.leads = true) (hn : e ≠ .launched (.ok ()))
    (hc : e.command? = none) :
    Drives r (r.conclude (r.session.next e)).1 (r.conclude (r.session.next e)).2 :=
  conclude_drives h hl he hx hn ((next_step he).no_launch hc)

theorem start_drives {n : Nat} (h : r.Secure (some n)) (hl : r.launching = none)
    (hst : r.session.stage = some .starting) (script : Script) :
    Drives r (r.start n script).1 (r.start n script).2 := by
  have hrun := emit_within h (.run r.backend.liveCount)
  have hacts := hrun.trans (perform_within hrun.secure script.atRun .atRun)
  have hend := hacts.trans (settleHook_within hacts.secure script.hold)
  have he := hend.stage.trans hst
  exact hend.drives (answer_drives (e := .started _) hend.secure (hend.launching.trans hl) he rfl
    nofun rfl)

theorem finishLaunch_drives {p : Pending} (h : r.Secure (some p.launch.channel))
    (hst : r.session.stage = some .launching) :
    Drives r (r.finishLaunch p).1 (r.finishLaunch p).2 := by
  have h₀ : Secure (some p.launch.channel) { r with launching := none } := ⟨h.held, h.loose⟩
  have hacts := perform_within h₀ p.script.atLaunch .atLaunch
  suffices hd : Drives { r with launching := none } (r.finishLaunch p).1 (r.finishLaunch p).2 from
    ⟨hd.leads, hd.ends, hd.waits⟩
  simp only [finishLaunch]
  cases p.script.launchFailure with
  | some f =>
    have hend := hacts.trans (settleHook_within hacts.secure p.script.hold)
    have he := hend.stage.trans hst
    exact hend.drives (answer_drives (e := .launched (.error _)) hend.secure hend.launching he rfl
      (by simp) rfl)
  | none =>
    have he : Session.Enabled _ (.launched (.ok ())) := hacts.stage.trans hst
    have hstart := start_drives
      (advance_secure hacts.secure he ((next_step he).no_launch rfl) nofun nofun)
      ((advance_launching _ _).trans hacts.launching) (by
        obtain ⟨f, hf, hlaunch⟩ := Session.stage_eq_some.mp he
        rw [advance_session]
        simp [Session.next, Session.launched, hf, hlaunch, Session.stage]) p.script
    exact hacts.drives ⟨(advance_leads he rfl).trans hstart.leads, hstart.ends, hstart.waits⟩

theorem launch_drives {l : Launch} (h : r.Secure (some l.channel))
    (hst : r.session.stage = some .launching) :
    Drives r (r.launch l).1 (r.launch l).2 := by
  have hmade : ∀ e, Within (some l.channel) r ({ r with scripts := r.scripts.drop 1 }.emit e) :=
    fun e => ⟨.refl r, ⟨h.held, h.loose⟩, rfl, rfl⟩
  simp only [launch]
  split
  · exact (hmade _).drives (finishLaunch_drives (hmade _).secure hst)
  · exact ⟨.refl r, nofun, fun _ => ⟨⟨h.held, h.loose⟩, hst⟩⟩

theorem opened_secure (h : r.Secure none) {e : Session.Event} (he : r.session.Enabled e)
    {l : Launch} (hp : (r.session.next e).progress = .launch l) :
    (r.advance (r.session.next e)).Secure (some l.channel) := by
  obtain ⟨hl, hc⟩ := (next_step he).hooks_opened hp
  have hch : ∀ n, (r.advance (r.session.next e)).session.channel n =
      if n = r.session.channels.length then .opened else r.session.channel n := fun n => by
    rw [advance_session]
    exact Session.channel_opened hc
  have hnew : ∀ n ∈ r.held, n ≠ r.session.channels.length := fun n hn =>
    Nat.ne_of_lt (Session.channel_lt_of_hook (h.held n hn))
  refine ⟨fun n hn => ?_, ?_⟩
  · rw [advance_held] at hn
    rw [hch, if_neg (hnew n hn)]
    exact h.held n hn
  · intro n hn
    obtain rfl := Option.mem_some_iff.mp hn
    rw [hl, hch, if_pos rfl, advance_held]
    exact ⟨by decide, fun hn => hnew _ hn rfl⟩

theorem follow_drives (h : r.Resting) (w : Binary64) (c : Command) :
    Drives r (r.follow (r.session.command w c)).1 (r.follow (r.session.command w c)).2 := by
  have he : r.session.Enabled (.command w c) := Session.stage_eq_none.mpr h.grounded
  have hnext : r.session.command w c = r.session.next (.command w c) := rfl
  rw [hnext]
  unfold follow
  split
  · next l hp =>
    obtain ⟨f, hf, hst, -⟩ := (next_step he).launching_of_launch hp
    have hlaunch := launch_drives (opened_secure h.secure he hp) (by
      rw [advance_session]
      exact Session.stage_eq_some.mpr ⟨f, hf, hst⟩)
    exact ⟨(advance_leads he rfl).trans hlaunch.leads, hlaunch.ends, hlaunch.waits⟩
  · next hp => exact conclude_drives h.secure h.launching he rfl nofun hp

theorem poll_drives (h : r.Paused) : Drives r r.poll.1 r.poll.2 := by
  have hsecure := h.secure
  have hst := h.stage
  simp only [poll]
  cases hl : r.launching with
  | none =>
    rw [hl] at hsecure hst
    have he : r.session.Enabled .poll := hst
    exact answer_drives hsecure hl he rfl nofun rfl
  | some p =>
    rw [hl] at hsecure hst
    simp only
    split
    · exact finishLaunch_drives hsecure hst
    · exact ⟨.refl r, nofun, fun _ => ⟨⟨hsecure.held, hsecure.loose⟩, hst⟩⟩

theorem land_flight (s : Session) : s.land.flight = none := by
  unfold Session.land
  split
  · rfl
  · assumption

theorem abandon_of_none (hl : r.launching = none) :
    r.abandon = r.advance (r.session.next .abandon) := by
  cases r
  cases hl
  rfl

theorem abandon_of_some {p : Pending} (hl : r.launching = some p) :
    r.abandon = { (r.advance (r.session.next .abandon)).settleHook p.launch.channel false with
      launching := none } := by
  cases r
  cases hl
  rfl

theorem abandon_rests (h : r.Paused) : r.Leads r.abandon ∧ r.abandon.Resting := by
  have hsecure := h.secure
  have hst := h.stage
  rcases hl : r.launching with _ | p
  · rw [hl] at hsecure hst
    have he : r.session.Enabled .abandon := .inr hst
    rw [abandon_of_none hl]
    exact ⟨advance_leads he rfl, advance_secure hsecure he nofun nofun nofun, hl, land_flight _⟩
  · rw [hl] at hsecure hst
    have he : r.session.Enabled .abandon := .inl hst
    have hend := settleHook_within (advance_secure hsecure he nofun nofun nofun) false
    have hled := (advance_leads he rfl).trans hend.leads
    rw [abandon_of_some hl]
    exact ⟨hled, ⟨hend.secure.held, nofun⟩, rfl, land_flight _⟩

theorem interlude_drives (h : r.Paused) (items : List Item) :
    Drives r (r.interlude items).2.1 (r.interlude items).2.2 := by
  induction items generalizing r with
  | nil => exact ⟨.refl r, nofun, fun _ => h⟩
  | cons item items ih =>
    cases item with
    | poll =>
      have hp := poll_drives h
      simp only [interlude]
      rcases hr : r.poll with ⟨_ | result, r'⟩
      · rw [hr] at hp
        have hd := ih (hp.waits rfl)
        exact ⟨hp.leads.trans hd.leads, hd.ends, hd.waits⟩
      · rw [hr] at hp
        exact hp
    | act a =>
      have ha := act_within h.secure none nofun a
      exact ha.drives (ih (h.of_within ha))

theorem drive_rests (h : r.Resting) (w : Binary64) (c : Command) (items : List Item) :
    r.Leads (r.drive (r.session.command w c) items).2.2 ∧
      (r.drive (r.session.command w c) items).2.2.Resting := by
  have hf := follow_drives h w c
  unfold drive
  rcases hr : r.follow (r.session.command w c) with ⟨_ | result, r₁⟩
  · rw [hr] at hf
    have hi := interlude_drives (hf.waits rfl) items
    have hled := hf.leads.trans hi.leads
    simp only
    rcases hs : r₁.interlude items with ⟨answers, _ | result, r₂⟩
    · rw [hs] at hi hled
      have hdrop := abandon_rests (hi.waits rfl)
      simp only
      split
      · exact ⟨hled.trans hdrop.1, hdrop.2⟩
      · have hp := poll_drives (hi.waits rfl)
        rcases ht : r₂.poll with ⟨_ | result, r₃⟩
        · rw [ht] at hp
          have hdrop := abandon_rests (hp.waits rfl)
          exact ⟨hled.trans (hp.leads.trans hdrop.1), hdrop.2⟩
        · rw [ht] at hp
          exact ⟨hled.trans hp.leads, hp.ends rfl⟩
    · rw [hs] at hi hled
      exact ⟨hled, hi.ends rfl⟩
  · rw [hr] at hf
    exact ⟨hf.leads, hf.ends rfl⟩

end Boots

/-- Commands are driven to their end, hooks and latches are used in between, and contexts are
replaced. What reaches past the context, to its surfaces or its state check, is left out. -/
inductive Rehearsed (o : Boot.Options) : Rehearsal → Prop where
  | new (scripts : List Script) : Rehearsed o (.new o scripts)
  | drive {r} (h : Rehearsed o r) (w : Binary64) (c : Command) (items : List Item) :
      Rehearsed o (r.drive (r.session.command w c) items).2.2
  | act {r} (h : Rehearsed o r) (a : Action) : Rehearsed o (act none r a).2
  | hardReset {r} (h : Rehearsed o r) (scripts : List Script) : Rehearsed o (r.hardReset scripts)
  | takeEvents {r} (h : Rehearsed o r) : Rehearsed o r.takeEvents.2

section Histories

variable {o : Boot.Options} {r : Rehearsal}

theorem new_rests (o : Boot.Options) (scripts : List Script) :
    (new o scripts).Resting ∧ (new o scripts).session = Session.after o [] ∧
      (new o scripts).backend = Session.shown o [] := by
  simp only [new]
  obtain ⟨hs, -, hl, hh⟩ := apply_rest
    ⟨(Session.new o).1, .new, scripts, none, [], []⟩ (Session.new o).2
  refine ⟨⟨⟨?_, nofun⟩, hl, ?_⟩, hs, apply_backend _ _⟩
  · rw [hh]
    nofun
  · rw [hs]
    rfl

theorem hardReset_rests (h : r.Resting) (scripts : List Script) :
    r.Leads (r.hardReset scripts) ∧ (r.hardReset scripts).Resting := by
  have he : r.session.Enabled .hardReset := Session.stage_eq_none.mpr h.grounded
  obtain ⟨hs₀, -, hl₀, hh₀⟩ := apply_rest r r.session.resetNotice
  simp only [hardReset, emit, hs₀]
  generalize hr : Rehearsal.mk r.session.hardReset.1 .new scripts _ _ _ = k
  obtain ⟨hs, -, hl, hh⟩ := apply_rest k r.session.hardReset.2
  have hsession : (k.apply r.session.hardReset.2).session =
      (r.session.next .hardReset).session := by
    rw [hs, ← hr]
    rfl
  refine ⟨.of_event he hsession ?_, ⟨⟨fun n hn => ?_, nofun⟩, ?_, ?_⟩⟩
  · rw [apply_backend, ← hr]
    rfl
  · rw [hsession, (next_step he).hooks_kept nofun nofun nofun]
    rw [hh, ← hr] at hn
    exact h.secure.held n (hh₀ ▸ hn)
  · rw [hl, ← hr]
    exact hl₀.trans h.launching
  · rw [hsession]
    have hs := Session.Step.reset h.grounded
    rw [hs.next_eq]
    exact h.grounded

theorem Rehearsed.rests (h : Rehearsed o r) : r.Resting ∧ Leads (.new o []) r := by
  induction h with
  | new scripts =>
    obtain ⟨hr, hs, hb⟩ := new_rests o scripts
    obtain ⟨-, hs₀, hb₀⟩ := new_rests o []
    refine ⟨hr, [], ?_⟩
    rw [hs, hb, hs₀, hb₀]
    exact .refl
  | drive _ w c items ih =>
    have hd := drive_rests ih.1 w c items
    exact ⟨hd.2, ih.2.trans hd.1⟩
  | act _ a ih =>
    have ha := act_within ih.1.secure none nofun a
    exact ⟨ih.1.of_within ha, ih.2.trans ha.leads⟩
  | hardReset _ scripts ih =>
    have hr := hardReset_rests ih.1 scripts
    exact ⟨hr.2, ih.2.trans hr.1⟩
  | takeEvents _ ih =>
    exact ⟨⟨⟨ih.1.secure.held, nofun⟩, ih.1.launching, ih.1.grounded⟩, ih.2⟩

/-- A rehearsal is one of the histories, and its backend is the page of that history. -/
theorem Rehearsed.history (h : Rehearsed o r) :
    ∃ es, Session.Possible o es ∧ Session.after o es = r.session ∧
      Session.shown o es = r.backend := by
  obtain ⟨-, es, he⟩ := h.rests
  obtain ⟨-, hs, hb⟩ := new_rests o []
  rw [hs, hb] at he
  have hnil : Session.Possible o [] := trivial
  have hp := he.possible hnil
  rw [List.append_nil] at hp
  exact ⟨es, hp⟩

end Histories

end Rehearsal

end Chip8Frame.Host
