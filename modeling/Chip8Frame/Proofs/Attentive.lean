import Chip8Frame.Proofs.ExitWiring
import Chip8Frame.Proofs.LaunchOrder
import Chip8Frame.Proofs.SoleBridge

/-! A boot in flight attends to its exit function. The bridge keeps the closure of its exit function
alive, the hook in it keeps the channel open, and the channel was told the first value that the
function was passed. Whatever happens to a frame, in whatever order, leaves this so: the closure is
replaced only by the next launch, and a launch begins only when no boot is in flight. -/

namespace Chip8Frame.Host.Session

section Sessions

variable {s u : Session} {e : Event} {t : Turn}

theorem boot?_eq_none : s.boot? = none ↔ s.flight = none := Option.map_eq_none_iff

theorem boot?_eq_some {n : Nat} {c : Boot.Config} :
    s.boot? = some (n, c) ↔ ∃ f, s.flight = some f ∧ f.channel = n ∧ f.config = c := by
  simp [boot?]

theorem awaited_iff_boot {n : Nat} : s.Awaited n ↔ ∃ c, s.boot? = some (n, c) := by
  simp only [awaited_iff, boot?_eq_some]
  exact ⟨fun ⟨f, hf, hn⟩ => ⟨_, f, hf, hn, rfl⟩, fun ⟨_, f, hf, hn, _⟩ => ⟨f, hf, hn⟩⟩

theorem Reaches.unwaited {es : List Event} {n : Nat} (h : Reaches s es u)
    (hs : ¬ s.Awaited n → (s.channel n).waiting = false) (hn : ¬ u.Awaited n) :
    (u.channel n).waiting = false := by
  induction h with
  | refl => exact hs hn
  | tail _ he ih => exact (next_step he).unwaited ih hn

theorem Reaches.channels_length {es : List Event} (h : Reaches s es u) :
    s.channels.length ≤ u.channels.length := by
  induction h with
  | refl => exact Nat.le_refl _
  | tail _ he ih => exact Nat.le_trans ih (next_step he).channels_length

theorem Step.over_or_same (hs : Step s e t) (hl : e.leads = true)
    (hc : ∀ l, t.progress ≠ .launch l) :
    t.session.boot? = none ∨ t.session.channels = s.channels ∧ t.session.boot? = s.boot? := by
  cases hs with
  | bannerShown hf | nothingToRestart hf | refused hf | busy hf =>
    exact .inl (boot?_eq_none.mpr hf)
  | accepted => exact absurd rfl (hc _)
  | launchFailed | startFailed | hookLost | exited => exact .inl rfl
  | launched hf => exact .inr ⟨rfl, by simp [boot?, hf]⟩
  | waiting hk => exact .inr ⟨rfl, by simp [boot?, hk.1]⟩
  | abandoned | signalled | cloned | dropped | recorded | recordedLate | reset => cases hl

end Sessions

end Chip8Frame.Host.Session

namespace Chip8Frame.Browser

open Host (Session)
open Host.Session (Reaches Step Unhooks next_step)

namespace Frame

/-- The frame in which the entry point of a guest is called: its module is there, and so is its
display. -/
def brought (f : Frame) (b : Bridge) (url : String) : Frame :=
  (f.report (.moduleReady url)).take b (b.session.launched (.ok ()))

def pollCalls (f : Frame) : Task → List ExitCall
  | .loading n url =>
      match f.loadOf n, readInstance (f.scriptOf (.guest n)), f.bridge with
      | .resolved, .ok (), some b => (f.brought b url).runCalls n
      | _, _, _ => []
  | _ => []

def callsIn (f : Frame) : Happening → List ExitCall
  | .act a => (exitCall? none f a).toList
  | .turn i => f.tasks[i]?.elim [] f.pollCalls
  | _ => []

def calls (p : Opening) : List Happening → List ExitCall
  | [] => []
  | x :: h => calls p h ++ (after p h).callsIn x

theorem calls_turn {p : Opening} {h : List Happening} {i : Nat} {t : Task}
    (hi : (after p h).tasks[i]? = some t) :
    calls p (.turn i :: h) = calls p h ++ (after p h).pollCalls t := by
  rw [calls, callsIn, hi]
  rfl

/-- A session was told of the exit calls, the first of each run and no other. -/
structure Informed (cs : List ExitCall) (s : Session) : Prop where
  known : ∀ c ∈ cs, c.channel < s.channels.length
  unwaited : ∀ n, ¬ s.Awaited n → (s.channel n).waiting = false
  told : ∀ n c, s.boot? = some (n, c) → (s.channel n).waiting = true ∧
    (s.channel n).delivered = (passed cs n).head?.map exitCode

/-- The bridge of a frame attends to the exit function of its boot. -/
structure Attends (cs : List ExitCall) (f : Frame) (b : Bridge) : Prop where
  informed : Informed cs b.session
  held : ∀ n c, b.session.boot? = some (n, c) → ∃ k, b.exitClosure = some k ∧
    f.realm.handler? k = some (.exit n) ∧ some k ∈ f.guests.map Guest.exitClosure
  past : f.Past b

structure Attentive (cs : List ExitCall) (f : Frame) : Prop where
  bare : f.bridge = none → cs = []
  attends : ∀ b, f.bridge = some b → f.Attends cs b

section Sessions

variable {s u : Session} {b b' : Bridge} {cs ds : List ExitCall}

theorem Informed.hears (h : Informed cs b.session) (hh : b.Hears ds b') :
    Informed (cs ++ ds) b'.session where
  known c hc := by
    rw [hh.opened]
    rcases List.mem_append.mp hc with hc | hc
    · exact h.known c hc
    · exact hh.known c hc
  unwaited n hn := by
    rw [Session.awaited_iff_boot, hh.boot, ← Session.awaited_iff_boot] at hn
    rw [hh.channel, foldl_tell_waiting]
    exact h.unwaited n hn
  told n c hboot := by
    obtain ⟨hw, hd⟩ := h.told n c (hh.boot ▸ hboot)
    rw [hh.channel, foldl_tell_waiting, foldl_tell_delivered hw, hd, passed_append,
      List.head?_append, Option.map_or]
    exact ⟨hw, rfl⟩

theorem Informed.grounded (h : Informed cs s) {es : List Session.Event} (hr : Reaches s es u)
    (hn : u.boot? = none) : Informed cs u where
  known c hc := Nat.lt_of_lt_of_le (h.known c hc) hr.channels_length
  unwaited n hw := hr.unwaited (h.unwaited n) hw
  told n c hboot := by simp [hn] at hboot

theorem Informed.unhooks (h : Informed cs s) (hu : Unhooks s u) : Informed cs u where
  known c hc := hu.opened ▸ h.known c hc
  unwaited n hn := by
    rw [Session.awaited_iff_boot, hu.boot?, ← Session.awaited_iff_boot] at hn
    rw [(hu.channel n).1]
    exact h.unwaited n hn
  told n c hboot := by
    rw [(hu.channel n).1, (hu.channel n).2]
    exact h.told n c (hu.boot? ▸ hboot)

theorem Informed.launch (h : Informed cs s) {e : Session.Event} {t : Host.Turn}
    (hs : Step s e t) {l : Host.Launch} (hp : t.progress = .launch l) :
    Informed cs t.session ∧ ∃ c, t.session.boot? = some (l.channel, c) := by
  obtain ⟨hn, fl, hf⟩ := hs.launching hp
  obtain ⟨-, -, -, config, -, -, -, -, hch, rfl, hl⟩ := hs.takeoff hn hf
  obtain rfl := Host.Progress.launch.inj (hp.symm.trans hl)
  have hboot : t.session.boot? = some (s.channels.length, config) :=
    Session.boot?_eq_some.mpr ⟨_, hf, rfl, rfl⟩
  refine ⟨⟨?_, fun n hw => hs.unwaited (h.unwaited n) hw, ?_⟩, config, hboot⟩
  · intro c hc
    have hle := h.known c hc
    simp only [hch, List.length_append]
    omega
  · intro n c hx
    obtain ⟨rfl, rfl⟩ := Prod.mk.inj (Option.some.inj (hboot.symm.trans hx))
    have hquiet : passed cs s.channels.length = [] :=
      passed_eq_nil fun c hc => Nat.ne_of_lt (h.known c hc)
    rw [Session.channel_opened hch, if_pos rfl, hquiet]
    exact ⟨rfl, rfl⟩

end Sessions

section Steps

variable {f g : Frame} {b b' : Bridge} {cs ds : List ExitCall}

theorem Hears.attends (h : Hears ds f g) (ha : Attends cs f b) (hb : f.bridge = some b)
    (hb' : g.bridge = some b') : Attends (cs ++ ds) g b' := by
  obtain ⟨c, hc, hh⟩ := h.bridge b hb
  obtain rfl := Option.some.inj (hc.symm.trans hb')
  refine ⟨ha.informed.hears hh, ?_, ?_⟩
  · intro n c hboot
    obtain ⟨k, hk, hx, hm⟩ := ha.held n c (hh.boot ▸ hboot)
    refine ⟨k, hh.exitClosure.trans hk, ?_, h.exits ▸ hm⟩
    simpa only [Realm.handler?, h.closures] using hx
  · intro k hk
    rw [h.nextClosure]
    exact ha.past k (hh.exitClosure ▸ hk)

theorem Hears.attentive (h : Hears ds f g) (ha : Attends cs f b) (hb : f.bridge = some b) :
    Attentive (cs ++ ds) g where
  bare hn := by
    obtain ⟨c, hc, -⟩ := h.bridge b hb
    exact absurd (hc.symm.trans hn) (Option.some_ne_none c)
  attends _ hb' := h.attends ha hb hb'

theorem Attentive.of_grounded (h : Informed cs b.session) {es : List Session.Event}
    (hr : Reaches b.session es b'.session) (hn : b'.session.boot? = none) (hp : g.Past b')
    (hb' : g.bridge = some b') : Attentive cs g where
  bare hx := absurd (hb'.symm.trans hx) (Option.some_ne_none b')
  attends c hc := by
    obtain rfl := Option.some.inj (hb'.symm.trans hc)
    exact ⟨h.grounded hr hn, fun n c hboot => by simp [hn] at hboot, hp⟩

theorem take_hears (hb : f.bridge = some b) {e : Session.Event} {t : Host.Turn}
    (hs : Step b.session e t) (hl : e.leads = true)
    (hsame : t.session.channels = b.session.channels ∧ t.session.boot? = b.session.boot?) :
    Hears [] f (f.take b t) := by
  have hk := b.surface.apply_kept (hs.captures (Session.Event.keeps_of_leads hl)) f.realm
  refine ⟨hk.closures, hk.nextClosure, rfl, fun c hc => ?_⟩
  obtain rfl := Option.some.inj (hb.symm.trans hc)
  refine ⟨_, rfl, rfl, hsame.2, congrArg List.length hsame.1, fun n => ?_, by simp⟩
  simp only [Session.channel, hsame.1]
  rfl

theorem conclude_eq {e : Session.Event} {t : Host.Turn} (hs : Step b.session e t)
    (hl : e.leads = true) (f : Frame) :
    ∃ surface r locked, Realm.Kept f.realm r ∧ (f.conclude b t).2 =
      { f with realm := r, locked, bridge := some { b with session := t.session, surface } } := by
  have hk := b.surface.apply_kept (hs.captures (Session.Event.keeps_of_leads hl)) f.realm
  simp only [conclude]
  split
  · next result _ =>
    obtain ⟨r, hr, he⟩ := finish_eq (f.take b t) result
    exact ⟨_, r, false, hk.trans hr, he⟩
  · exact ⟨_, _, f.locked, hk, rfl⟩

theorem conclude_attentive (h : Attends cs f b) (hb : f.bridge = some b) {e : Session.Event}
    {t : Host.Turn} (hs : Step b.session e t) (hl : e.leads = true)
    (hc : ∀ l, t.progress ≠ .launch l) : Attentive cs (f.conclude b t).2 := by
  obtain ⟨surface, r, locked, hr, he⟩ := conclude_eq hs hl f
  rw [he]
  rcases hs.over_or_same hl hc with hn | hsame
  · have hone := Reaches.single hs.enabled
    rw [hs.next_eq] at hone
    refine .of_grounded h.informed hone hn (fun k hk => ?_) rfl
    exact hr.nextClosure ▸ h.past k hk
  · have hh : Hears [] f { f with
        realm := r, locked, bridge := some { b with session := t.session, surface } } := by
      refine ⟨hr.closures, hr.nextClosure, rfl, fun c hc => ?_⟩
      obtain rfl := Option.some.inj (hb.symm.trans hc)
      refine ⟨_, rfl, rfl, hsame.2, congrArg List.length hsame.1, fun n => ?_, by simp⟩
      simp only [Session.channel, hsame.1]
      rfl
    refine ⟨fun hn => absurd hn (Option.some_ne_none _), fun c hc' => ?_⟩
    obtain rfl := Option.some.inj hc'
    simpa using hh.attends h hb rfl

theorem respond_attentive (h : Attends cs f b) (hb : f.bridge = some b) {e : Session.Event}
    (he : b.session.Enabled e) (hl : e.leads = true) (hc : e.command? = none)
    {turn : Session → Host.Turn} (ht : ∀ s, turn s = s.next e) :
    Attentive cs (f.respond turn).2 := by
  have hr : f.respond turn = f.conclude b (b.session.next e) := by simp only [respond, hb, ht]
  rw [hr]
  exact conclude_attentive h hb (next_step he) hl ((next_step he).no_launch hc)

end Steps

/-! Tasks and happenings. -/

section Happenings

variable {f g : Frame} {b : Bridge} {cs : List ExitCall}

theorem board_attentive {l : Host.Launch} (ht : f.Tidy (some l.channel)) (hb : f.bridge = some b)
    (hst : b.session.stage = some .launching) {c : Boot.Config}
    (hboot : b.session.boot? = some (l.channel, c)) (h : Informed cs b.session) (hp : f.Past b) :
    Attentive cs (f.board l).2 := by
  obtain ⟨scripts, guests, hg, -⟩ := launchGuest_goes ht
  obtain ⟨b', hb', hp', hwired⟩ := launchGuest_wired ht hb hp
  unfold board
  rcases hx : f.launchGuest l with ⟨made, g⟩
  rw [hx] at hg hb' hp' hwired
  cases made with
  | ok n =>
    have hw := hwired n rfl
    refine ⟨fun hn => absurd (hb'.symm.trans hn) (Option.some_ne_none b'), fun d hd => ?_⟩
    obtain rfl := Option.some.inj (hb'.symm.trans hd)
    refine ⟨h.unhooks hw.unhooks, fun n c' hx => ?_, hp'⟩
    rw [hw.unhooks.boot?, hboot] at hx
    obtain ⟨rfl, -⟩ := Prod.mk.inj (Option.some.inj hx)
    exact hw.held
  | error e =>
    obtain ⟨d, hd, hdrift⟩ := hg.drifts.bridge_of_some (f := { f with scripts, guests }) hb
    obtain rfl := Option.some.inj (hb'.symm.trans hd)
    have hg' : g.bridge = some b' := hb'
    obtain ⟨es, -, hr⟩ := hdrift.session
    have hst' : b'.session.Enabled (.launched (.error e)) := by
      show b'.session.stage = _
      rw [Session.stage, hdrift.flight]
      exact hst
    have hs := next_step hst'
    obtain ⟨surface, r, locked, hk, he⟩ := conclude_eq hs rfl g
    have hresp : g.respond (·.launched (.error e)) =
        g.conclude b' (b'.session.next (.launched (.error e))) := by
      simp only [respond, hg']
      rfl
    simp only [hresp, he]
    refine .of_grounded h (hr.trans (.single hst')) ?_ (fun k hx => ?_) rfl
    · obtain ⟨fl, hfl, hstage⟩ := Session.stage_eq_some.mp hst'
      simp [Session.next, Session.launched, hfl, hstage, Session.land, Session.boot?]
    · exact hk.nextClosure ▸ hp' k hx

theorem startCommand_attentive (ht : f.Tidy none) (hb : f.bridge = some b)
    (hfree : b.session.flight = none) (h : Attends cs f b) (c : Host.Command) (w : Binary64) :
    Attentive cs (f.startCommand c w).2 := by
  have hs := Session.command_step hfree w c
  have ht' : Tidy none { f with locked := true } := ⟨ht.fresh, ht.nodup, ht.hooks⟩
  by_cases hc : ∃ l, (b.session.command w c).progress = .launch l
  · obtain ⟨l, hp⟩ := hc
    obtain ⟨hi, config, hboot⟩ := h.informed.launch hs hp
    obtain ⟨fl, hfl, hst, -⟩ := hs.launching_of_launch hp
    have hm := take_tidy ht' hb hs rfl
    rw [hp] at hm
    have hk := b.surface.apply_kept (hs.captures rfl) f.realm
    rw [startCommand_of_launch hb hp]
    exact board_attentive hm rfl (Session.stage_eq_some.mpr ⟨fl, hfl, hst⟩) hboot hi
      fun k hx => hk.nextClosure ▸ h.past k hx
  · have hp : ∀ l, (b.session.command w c).progress ≠ .launch l := fun l hl => hc ⟨l, hl⟩
    rw [startCommand_of_done hb hp]
    exact conclude_attentive (f := { f with locked := true }) ⟨h.informed, h.held, h.past⟩ hb hs rfl
      hp

theorem brought_hears (hb : f.bridge = some b) (hst : b.session.stage = some .launching)
    (url : String) : Hears [] f (f.brought b url) := by
  have he : b.session.Enabled (.launched (.ok ())) := hst
  have hs := next_step he
  have hsame := (hs.over_or_same rfl (hs.no_launch rfl)).resolve_left (by
    obtain ⟨fl, hfl, hstage⟩ := Session.stage_eq_some.mp hst
    simp [Session.next, Session.launched, hfl, hstage, Session.boot?])
  exact (report_hears f _).trans (take_hears (f := f.report (.moduleReady url)) hb hs rfl hsame)

theorem brought_tidy (ht : f.Tidy none) (hb : f.bridge = some b)
    (hst : b.session.stage = some .launching) (url : String) : (f.brought b url).Tidy none := by
  have he : b.session.Enabled (.launched (.ok ())) := hst
  have hs := next_step he
  have hm := take_tidy (report_goes ht (.moduleReady url)).tidy hb hs rfl
  rwa [Host.Progress.channel?_eq_none (hs.no_launch rfl)] at hm

theorem Serves.stage (hb : f.bridge = some b) {n : Nat} {url : String}
    (hs : f.Serves (.loading n url)) : b.session.stage = some .launching := by
  obtain ⟨b', fl, hb', hf, hst, -⟩ := hs
  obtain rfl := Option.some.inj (hb.symm.trans hb')
  exact Session.stage_eq_some.mpr ⟨fl, hf, hst⟩

/-- The frame after the run function of a guest: its exit calls were heard, and the session waits to
be told how the function ended. -/
theorem brought_run (ht : f.Tidy none) (hb : f.bridge = some b)
    (hst : b.session.stage = some .launching) (n : Nat) (url : String) :
    ∃ d, ((f.brought b url).runGuest n).2.bridge = some d ∧
      d.session.Enabled (.started ((f.brought b url).runGuest n).1) ∧
      ((f.brought b url).runGuest n).2.Tidy none ∧
      Hears ((f.brought b url).runCalls n) f ((f.brought b url).runGuest n).2 := by
  have htidy := brought_tidy ht hb hst url
  have hgoes := runGuest_goes htidy n
  obtain ⟨c, hc, -⟩ := (brought_hears hb hst url).bridge b hb
  obtain ⟨d, hd, hdrift⟩ := hgoes.drifts.bridge_of_some hc
  have hstage : c.session.stage = some .starting := by
    have he : b.session.Enabled (.launched (.ok ())) := hst
    exact (take_launched_shown (f := f.report (.moduleReady url)) (next_step he) hc).2
  refine ⟨d, hd, ?_, hgoes.tidy, (brought_hears hb hst url).trans (runGuest_hears htidy n)⟩
  show d.session.stage = _
  rw [Session.stage, hdrift.flight]
  exact hstage

theorem bringUp_of_read (hb : f.bridge = some b) {n : Nat}
    (hread : readInstance (f.scriptOf (.guest n)) = .ok ()) (url : String) :
    f.bringUp n url = ((f.brought b url).runGuest n).2.respond
      (·.started ((f.brought b url).runGuest n).1) := by
  have hb₁ : (f.report (.moduleReady url)).bridge = some b := hb
  simp only [bringUp, hread, hb₁]
  rfl

theorem bringUp_attentive (ht : f.Tidy none) (hb : f.bridge = some b) (h : Attends cs f b)
    (hst : b.session.stage = some .launching) {n : Nat}
    (hread : readInstance (f.scriptOf (.guest n)) = .ok ()) (url : String) :
    Attentive (cs ++ (f.brought b url).runCalls n) (f.bringUp n url).2 := by
  obtain ⟨d, hd, he, -, hh⟩ := brought_run ht hb hst n url
  rw [bringUp_of_read hb hread]
  exact respond_attentive (hh.attends h hb hd) hd he rfl rfl fun _ => rfl

theorem Idle.hears {t : Task} (h : f.Idle t) : Hears (f.pollCalls t) f (f.pollTask t).2.2 := by
  have hcalls : f.pollCalls t = [] := by cases h <;> rfl
  obtain ⟨r, hr, he⟩ := h.polled
  rw [hcalls, he]
  exact .of_kept hr

theorem pollTask_attentive (ho : f.Orderly) (hb : f.bridge = some b) (h : Attends cs f b)
    {t : Task} (ht : t ∈ f.tasks) :
    Attentive (cs ++ f.pollCalls t) (f.pollTask t).2.2 := by
  rcases ho.idle_or_polled ht with hidle | ⟨hl, hw⟩
  · exact hidle.hears.attentive h hb
  cases t with
  | watching n waited => exact absurd rfl (hw n waited)
  | command c w =>
    have hl' : f.locked = false := hl
    simp only [pollTask, hl', pollCalls, List.append_nil, Bool.false_eq_true, if_false]
    exact startCommand_attentive ho.tidy hb (ho.grounded hl' b hb) h c w
  | loading n url =>
    have hst := Serves.stage hb (ho.served _ ht rfl)
    have hfail : ∀ e, Attentive (cs ++ []) (f.respond (·.launched (.error e))).2 := fun e => by
      rw [List.append_nil]
      exact respond_attentive h hb (e := .launched (.error e)) hst rfl rfl fun _ => rfl
    simp only [pollTask, pollCalls]
    cases hload : f.loadOf n with
    | pending => simpa using (Hears.refl f).attentive h hb
    | rejected v => exact hfail _
    | resolved =>
      cases hread : readInstance (f.scriptOf (.guest n)) with
      | error v =>
        simp only [bringUp, hread]
        exact hfail _
      | ok u =>
        simp only [hb]
        exact bringUp_attentive ho.tidy hb h hst hread url
  | running =>
    obtain ⟨b', fl, hb', hf, hst⟩ := ho.served _ ht rfl
    obtain rfl := Option.some.inj (hb.symm.trans hb')
    have he : b.session.Enabled .poll := Session.stage_eq_some.mpr ⟨fl, hf, hst⟩
    rw [pollTask_running]
    simp only [pollCalls, List.append_nil]
    exact respond_attentive h hb he rfl rfl fun _ => rfl

theorem turn_attentive (ho : f.Orderly) (hb : f.bridge = some b) (h : Attends cs f b) (i : Nat) :
    Attentive (cs ++ f.callsIn (.turn i)) (f.turn i) := by
  cases hi : f.tasks[i]? with
  | none =>
    rw [turn_of_none hi]
    simp only [callsIn, hi, Option.elim_none]
    exact (Hears.refl f).attentive h hb
  | some t =>
    have hp := pollTask_attentive ho hb h (List.mem_of_getElem? hi)
    rw [turn_of_some hi]
    simp only [callsIn, hi, Option.elim_some]
    cases (f.pollTask t).2.1 <;>
      exact ⟨hp.bare, fun c hc => ⟨(hp.attends c hc).informed, (hp.attends c hc).held,
        (hp.attends c hc).past⟩⟩

theorem callsIn_bare (ho : f.Orderly) (hb : f.bridge = none) (x : Happening) :
    f.callsIn x = [] := by
  obtain ⟨ht, -, hc⟩ := ho.bare hb
  cases x with
  | turn i => simp [callsIn, ht]
  | act a =>
    cases a with
    | exit guest v =>
      rcases callExit_cases f guest v with ⟨closure, n, -, hx, -⟩ | ⟨hn, -⟩
      · simp [Realm.handler?, hc] at hx
      · simp [callsIn, exitCall?, hn]
    | _ => rfl
  | _ => rfl

theorem Installed.attends {options : Value} (hi : f.Installed options g) (hb : g.bridge = some b)
    {k : Frame} : Attends [] k b := by
  obtain ⟨o, surface, -, hg⟩ := hi.bridge
  obtain rfl := Option.some.inj (hg.symm.trans hb)
  refine ⟨⟨by simp, fun n _ => rfl, ?_⟩, ?_, nofun⟩
  · exact fun n c hboot => by cases hboot
  · exact fun n c hboot => by cases hboot

/-- Whatever happens between the turns of tasks, only exit calls concern the boot in flight. -/
theorem next_hears (ho : f.Orderly) (hb : f.bridge = some b) {x : Happening}
    (hx : ∀ i, x ≠ .turn i) : Hears (f.callsIn x) f (f.next x) := by
  have hentry : ∀ options (y : Entry), Hears [] f (f.next (y.happening options)) := by
    intro options y
    obtain ⟨-, ⟨console, he⟩, -⟩ := enter_untouched (f := f) (by simp [hb]) options y
    rw [next_happening, he]
    exact ⟨rfl, rfl, rfl, fun c hc => ⟨c, hc, .refl c⟩⟩
  cases x with
  | boot options => exact hentry options .boot
  | listen options => exact hentry options .listen
  | restart =>
    simp only [next, restart]
    split
    · exact .refl f
    · split
      · exact .refl f
      · exact spawn_hears f _
  | turn i => exact absurd rfl (hx i)
  | load guest outcome =>
    have hh : Hears [] f (f.settleLoad guest outcome) := updateGuest_hears f _ fun _ => rfl
    exact hh
  | runDone guest outcome =>
    simp only [next, settleRun]
    split
    · exact .refl f
    · exact updateGuest_hears f (guest.getD (f.guests.length - 1)) (fun _ => rfl)
  | act a => exact act_hears ho.tidy none a
  | change page => exact ⟨rfl, rfl, rfl, fun c hc => ⟨c, hc, .refl c⟩⟩

theorem next_attentive (ho : f.Orderly) (h : Attentive cs f) (x : Happening) :
    Attentive (cs ++ f.callsIn x) (f.next x) := by
  cases hb : f.bridge with
  | some b =>
    cases x with
    | turn i => exact turn_attentive ho hb (h.attends b hb) i
    | _ => exact (next_hears ho hb (by simp)).attentive (h.attends b hb) hb
  | none =>
    rw [h.bare hb, callsIn_bare ho hb]
    refine ⟨fun _ => rfl, fun b hb' => ?_⟩
    cases hx : f.installs? x with
    | none =>
      have hn := bare_of_installs? ho hb hx
      exact absurd (hn.symm.trans hb') (Option.some_ne_none b).symm
    | some options =>
      obtain ⟨y, -, -, rfl, hi, -⟩ := installed_of_installs? ho hx
      obtain ⟨g, hg, hgb, -⟩ := enter_installed ho hi y
      rw [next_happening] at hb'
      exact hg.attends (hgb.symm.trans hb')

end Happenings

theorem after_attentive (p : Opening) (h : List Happening) :
    Attentive (calls p h) (after p h) := by
  induction h with
  | nil => exact ⟨fun _ => rfl, fun b hb => by cases hb⟩
  | cons x h ih => exact next_attentive (after_orderly p h) ih x

end Frame

end Chip8Frame.Browser
