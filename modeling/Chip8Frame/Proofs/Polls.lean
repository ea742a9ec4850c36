import Chip8Frame.Proofs.Interlude

/-! What one poll of a task does to a frame when the task holds the lock or takes it. The session
goes through events of its own: a command, the answers of the guest's launch and start, a look at
the exit, with interludes in between. Whatever way the boot goes, the poll leaves a task that waits
with it, or the lock free and no boot in flight. -/

namespace Chip8Frame.Host

/-- The channel of a launch, whose hook nobody holds yet. -/
def Progress.channel? : Progress → Option Nat
  | .launch l => some l.channel
  | _ => none

theorem Progress.channel?_eq_none {p : Progress} (h : ∀ l, p ≠ .launch l) : p.channel? = none := by
  cases p with
  | launch l => exact absurd rfl (h l)
  | _ => rfl

end Chip8Frame.Host

namespace Chip8Frame.Browser

open Host (Session Turn)
open Host.Session (Reaches Step next_step)

/-- The display of the boot in flight is reserved once its guest is launched. -/
def Bridge.Shown (b : Bridge) : Prop :=
  ∀ f, b.session.flight = some f → f.stage ≠ .launching →
    b.surface.display = some f.config.displaySize

theorem Bridge.Drifts.flight {b b' : Bridge} (h : b.Drifts b') :
    b'.session.flight = b.session.flight := by
  obtain ⟨es, hes, hr⟩ := h.session
  exact (hr.bystanders hes).1

theorem Bridge.Drifts.shown {b b' : Bridge} (h : b.Drifts b') (hs : b.Shown) : b'.Shown := by
  intro f hf hst
  rw [h.surface]
  exact hs f (h.flight ▸ hf) hst

namespace Frame

/-- The session goes through events, and tasks are queued meanwhile. -/
structure Moves (es : List Session.Event) (loose : Option Nat) (f g : Frame) : Prop where
  tidy : g.Tidy loose
  steady : f.realm.Steady g.realm
  posted : ∃ ts, g.tasks = f.tasks ++ ts ∧ ∀ t ∈ ts, t.Posted f.realm
  session : ∃ b b', f.bridge = some b ∧ g.bridge = some b' ∧ Reaches b.session es b'.session
  keeps : ∀ e ∈ es, e.keeps = true

theorem Moves.trans {es fs : List Session.Event} {l l' : Option Nat} {f g k : Frame}
    (h : Moves es l f g) (k' : Moves fs l' g k) : Moves (fs ++ es) l' f k where
  tidy := k'.tidy
  steady := h.steady.trans k'.steady
  posted := posted_trans h.steady h.posted k'.posted
  session := by
    obtain ⟨b, c, hb, hc, hr⟩ := h.session
    obtain ⟨c', d, hc', hd, hs⟩ := k'.session
    obtain rfl := Option.some.inj (hc.symm.trans hc')
    exact ⟨b, d, hb, hd, hr.trans hs⟩
  keeps := by
    intro e he
    rcases List.mem_append.mp he with he | he
    · exact k'.keeps e he
    · exact h.keeps e he

theorem Drifts.bridge_of_some {f g : Frame} (h : f.Drifts g) {b : Bridge} (hb : f.bridge = some b) :
    ∃ b', g.bridge = some b' ∧ b.Drifts b' := by
  have hr := h.bridge
  rw [hb] at hr
  generalize g.bridge = x at hr
  cases hr with
  | some hd => exact ⟨_, rfl, hd⟩

theorem Goes.moves {l : Option Nat} {f g : Frame} (h : Goes l f g) {b : Bridge}
    (hb : f.bridge = some b) :
    ∃ es, (∀ e ∈ es, e.bystander = true) ∧ Moves es l f g := by
  obtain ⟨b', hb', hd⟩ := h.drifts.bridge_of_some hb
  obtain ⟨es, hes, hr⟩ := hd.session
  exact ⟨es, hes, h.tidy, h.drifts.steady, h.drifts.posted, ⟨b, b', hb, hb', hr⟩,
    fun e he => Session.Event.keeps_of_bystander (hes e he)⟩

section Steps

variable {f : Frame} {b : Bridge} {e : Session.Event} {t : Turn}

theorem take_tidy (h : f.Tidy none) (hb : f.bridge = some b) (hs : Step b.session e t)
    (hl : e.leads = true) : (f.take b t).Tidy t.progress.channel? := by
  have hk := b.surface.apply_kept (hs.captures (Session.Event.keeps_of_leads hl)) f.realm
  have hexits : ∀ n, (f.take b t).exits n = f.exits n := fun n => by
    simp only [exits, take, hk.closures]
  refine ⟨?_, ?_, ?_⟩
  · simpa only [take, hk.closures, hk.nextClosure] using h.fresh
  · simpa only [take, hk.closures] using h.nodup
  · intro c hc n
    obtain rfl := Option.some.inj hc
    show (t.session.channel n).hooks = _
    have hold := h.hooks b hb
    rw [hexits]
    cases hp : t.progress with
    | launch l =>
      obtain ⟨hch, hcs⟩ := hs.hooks_opened hp
      have hnew := hold b.session.channels.length
      rw [Session.hooks_unopened] at hnew
      rw [Session.channel_opened hcs, Host.Progress.channel?, hch]
      by_cases hn : n = b.session.channels.length
      · subst hn
        have hzero : f.exits b.session.channels.length = 0 := by
          simpa using hnew.symm
        simp [hzero, Exit.Channel.opened]
      · have hn' : some b.session.channels.length ≠ some n := fun hx => hn (Option.some.inj hx).symm
        rw [if_neg hn, if_neg hn', hold n]
        simp
    | _ =>
      have hkept := hs.hooks_kept (by simp [hp]) (by rintro _ rfl; cases hl)
        (by rintro _ rfl; cases hl) n
      rw [hkept, hold n]
      simp [Host.Progress.channel?]

theorem take_moves (h : f.Tidy none) (hb : f.bridge = some b) (hs : Step b.session e t)
    (hl : e.leads = true) : Moves [e] t.progress.channel? f (f.take b t) where
  tidy := take_tidy h hb hs hl
  steady := (b.surface.apply_kept (hs.captures (Session.Event.keeps_of_leads hl)) _).toSteady
  posted := ⟨[], by simp [take], by simp⟩
  session := by
    refine ⟨b, _, hb, rfl, ?_⟩
    have hr := Reaches.single hs.enabled
    rwa [hs.next_eq] at hr
  keeps := by simpa using Session.Event.keeps_of_leads hl

/-- What a poll leaves: a task that waits with the boot in flight, or the lock free. -/
def Serves (f : Frame) : Task → Prop
  | .loading n _ => ∃ b fl, f.bridge = some b ∧ b.session.flight = some fl ∧
      fl.stage = .launching ∧ f.argv n = some fl.config.arguments.toList
  | .running => ∃ b fl, f.bridge = some b ∧ b.session.flight = some fl ∧ fl.stage = .running
  | _ => False

structure Polled (es : List Session.Event) (f : Frame) (left : Option Task) (g : Frame) : Prop
    extends Moves es none f g where
  locked : g.locked = left.isSome
  served : ∀ t ∈ left, g.Serves t
  grounded : left = none → ∀ b, g.bridge = some b → b.session.flight = none
  shown : ∀ b, g.bridge = some b → b.Shown

theorem Moves.polled {es fs : List Session.Event} {l : Option Nat} {g k : Frame}
    {left : Option Task} (h : Moves es l f g) (k' : Polled fs g left k) :
    Polled (fs ++ es) f left k where
  toMoves := h.trans k'.toMoves
  locked := k'.locked
  served := k'.served
  grounded := k'.grounded
  shown := k'.shown

theorem finish_eq (f : Frame) (result : Except Host.BootError Host.Outcome) :
    ∃ r, Realm.Kept f.realm r ∧ f.finish result = { f with realm := r, locked := false } := by
  unfold finish
  split
  · exact ⟨f.realm, .refl _, rfl⟩
  · exact ⟨_, .report _ _, rfl⟩
  · exact ⟨_, .report _ _, rfl⟩
  · exact ⟨_, .report _ _, rfl⟩

theorem Moves.finish {es : List Session.Event} {g : Frame} (h : Moves es none f g)
    (result : Except Host.BootError Host.Outcome) :
    Moves es none f (g.finish result) ∧ (g.finish result).locked = false ∧
      (g.finish result).bridge = g.bridge := by
  obtain ⟨r, hr, he⟩ := finish_eq g result
  have hg := Goes.of_kept h.tidy hr
  rw [he]
  refine ⟨⟨⟨hg.tidy.fresh, hg.tidy.nodup, hg.tidy.hooks⟩, h.steady.trans hr.toSteady, h.posted,
    h.session, h.keeps⟩, rfl, rfl⟩

theorem conclude_polled (h : f.Tidy none) (hb : f.bridge = some b) (hs : Step b.session e t)
    (hl : e.leads = true) (hn : e ≠ .launched (.ok ())) (hc : ∀ l, t.progress ≠ .launch l)
    (hsh : b.Shown) (hlock : f.locked = true) :
    Polled [e] f (f.conclude b t).1 (f.conclude b t).2 := by
  have hm := take_moves h hb hs hl
  rcases hs.launch_or_done hl hn with ⟨l, hp⟩ | ⟨result, hp⟩ | hp
  · exact absurd hp (hc l)
  · simp only [conclude, hp]
    rw [hp] at hm
    obtain ⟨hm', hlock', hbridge⟩ := Moves.finish hm result
    have hfl : ∀ c, ((f.take b t).finish result).bridge = some c → c.session.flight = none := by
      intro c hc
      obtain rfl := Option.some.inj (hbridge.symm.trans hc)
      exact hs.landed_of_done hp
    refine ⟨hm', hlock', by simp, fun _ => hfl, ?_⟩
    intro c hc fl hf
    rw [hfl c hc] at hf
    cases hf
  · simp only [conclude, hp]
    rw [hp] at hm
    obtain ⟨heff, fl, hf, hst, hf'⟩ := hs.running_of_pending hl hp
    refine ⟨hm, hlock, ?_, by simp, ?_⟩
    · intro u hu
      obtain rfl := Option.mem_some_iff.mp hu
      exact ⟨_, _, rfl, hf', rfl⟩
    · intro c hc g hg _
      obtain rfl := Option.some.inj hc
      obtain rfl := Option.some.inj (hf'.symm.trans hg)
      simp only [heff]
      exact hsh fl hf hst

theorem respond_polled (h : f.Tidy none) (hb : f.bridge = some b) (he : b.session.Enabled e)
    (hl : e.leads = true) (hn : e ≠ .launched (.ok ())) (hc : e.command? = none) (hsh : b.Shown)
    (hlock : f.locked = true) {turn : Session → Turn} (ht : ∀ s, turn s = s.next e) :
    Polled [e] f (f.respond turn).1 (f.respond turn).2 := by
  have hr : f.respond turn = f.conclude b (b.session.next e) := by
    simp only [respond, hb, ht]
  rw [hr]
  exact conclude_polled h hb (next_step he) hl hn ((next_step he).no_launch hc) hsh hlock

theorem launch_failed_polled (h : f.Tidy none) (hb : f.bridge = some b)
    (hst : b.session.stage = some .launching) (hsh : b.Shown) (hlock : f.locked = true)
    (error : Host.GuestError) :
    Polled [.launched (.error error)] f (f.respond (·.launched (.error error))).1
      (f.respond (·.launched (.error error))).2 := by
  have he : b.session.Enabled (.launched (.error error)) := hst
  exact respond_polled h hb he rfl (by simp) rfl hsh hlock fun _ => rfl

theorem Moves.from {es : List Session.Event} {l : Option Nat} {g : Frame} {locked : Bool}
    {scripts : List GuestScript} {guests : List Guest}
    (h : Moves es l { f with locked, scripts, guests } g) : Moves es l f g :=
  ⟨h.tidy, h.steady, h.posted, h.session, h.keeps⟩

theorem Polled.from {es : List Session.Event} {left : Option Task} {g : Frame} {locked : Bool}
    (h : Polled es { f with locked } left g) : Polled es f left g :=
  ⟨h.toMoves.from, h.locked, h.served, h.grounded, h.shown⟩

theorem shown_of_launching {fl : Host.Flight} (hf : b.session.flight = some fl)
    (hst : fl.stage = .launching) : b.Shown := by
  intro fl' hf' hn
  obtain rfl := Option.some.inj (hf.symm.trans hf')
  exact absurd hst hn

def board (f : Frame) (l : Host.Launch) : Option Task × Frame :=
  match f.launchGuest l with
  | (.ok n, f) => (some (.loading n l.moduleUrl), f)
  | (.error e, f) => f.respond (·.launched (.error e))

theorem startCommand_of_launch (hb : f.bridge = some b) {c : Host.Command} {w : Binary64}
    {l : Host.Launch} (hp : (b.session.command w c).progress = .launch l) :
    f.startCommand c w =
      ({ f with locked := true }.take b (b.session.command w c)).board l := by
  simp only [startCommand, hb, hp]
  rfl

theorem startCommand_of_done (hb : f.bridge = some b) {c : Host.Command} {w : Binary64}
    (hp : ∀ l, (b.session.command w c).progress ≠ .launch l) :
    f.startCommand c w = { f with locked := true }.conclude b (b.session.command w c) := by
  simp only [startCommand, hb]

/-- A launch that the session has begun: its guest loads, or the boot is over. -/
theorem board_polled {l : Host.Launch} (h : f.Tidy (some l.channel)) (hb : f.bridge = some b)
    {fl : Host.Flight} (hf : b.session.flight = some fl) (hst : fl.stage = .launching)
    (ha : l.arguments = fl.config.arguments) (hlock : f.locked = true) :
    ∃ es, (∀ e ∈ es, e.command? = none) ∧ Polled es f (f.board l).1 (f.board l).2 := by
  obtain ⟨scripts, guests, hg, hargv⟩ := launchGuest_goes h
  unfold board
  rcases hl : f.launchGuest l with ⟨made, g⟩
  rw [hl] at hg hargv
  have hb₀ : ({ f with scripts, guests } : Frame).bridge = some b := hb
  obtain ⟨b', hb', hd⟩ := hg.drifts.bridge_of_some hb₀
  obtain ⟨es, hes, hm⟩ := hg.moves hb₀
  have hf' : b'.session.flight = some fl := hd.flight.trans hf
  have hsh : b'.Shown := shown_of_launching hf' hst
  have hlock' : g.locked = true := hg.drifts.locked.trans hlock
  have hnone : ∀ e ∈ es, e.command? = none := fun e he =>
    Session.Event.command?_of_bystander (hes e he)
  cases made with
  | ok n =>
    refine ⟨es, hnone, hm.from, hlock', ?_, by simp, ?_⟩
    · intro u hu
      obtain rfl := Option.mem_some_iff.mp hu
      refine ⟨b', fl, hb', hf', hst, ?_⟩
      rw [← ha]
      exact hargv n rfl
    · intro c hc
      obtain rfl := Option.some.inj (hb'.symm.trans hc)
      exact hsh
  | error e =>
    have hst' : b'.session.stage = some .launching := Session.stage_eq_some.mpr ⟨fl, hf', hst⟩
    have hp := launch_failed_polled hm.tidy hb' hst' hsh hlock' e
    refine ⟨[.launched (.error e)] ++ es, ?_, hm.from.polled hp⟩
    simpa [Session.Event.command?] using hnone

theorem startCommand_polled (h : f.Tidy none) (hb : f.bridge = some b)
    (hf : b.session.flight = none) (hsh : b.Shown) (c : Host.Command) (w : Binary64) :
    ∃ es, (∀ e ∈ es, e.command? = none) ∧
      Polled (es ++ [.command w c]) f (f.startCommand c w).1 (f.startCommand c w).2 := by
  have hs := Session.command_step hf w c
  have h₁ : Tidy none { f with locked := true } := ⟨h.fresh, h.nodup, h.hooks⟩
  by_cases hc : ∃ l, (b.session.command w c).progress = .launch l
  · obtain ⟨l, hp⟩ := hc
    obtain ⟨fl, hfl, hst, ha⟩ := hs.launching_of_launch hp
    have hm := take_moves h₁ hb hs rfl
    rw [hp] at hm
    obtain ⟨es, hes, hk⟩ := board_polled hm.tidy rfl hfl hst ha rfl
    rw [startCommand_of_launch hb hp]
    exact ⟨es, hes, hm.from.polled hk⟩
  · have hp : ∀ l, (b.session.command w c).progress ≠ .launch l := fun l hl => hc ⟨l, hl⟩
    have hk := conclude_polled h₁ hb hs rfl (by simp) hp hsh rfl
    rw [startCommand_of_done hb hp]
    exact ⟨[], by simp, hk.from⟩

theorem apply_createDisplay (s : DocumentSurface) (m : Surface.Manager) (size : UInt32 × UInt32)
    (r : Realm) : (s.apply (m.createDisplay size).effects r).1.display = some size := by
  simp only [Surface.Manager.createDisplay]
  rw [DocumentSurface.apply_append]
  rfl

theorem take_launched_shown (hs : Step b.session (.launched (.ok ())) t)
    {c : Bridge} (hc : (f.take b t).bridge = some c) :
    c.Shown ∧ c.session.stage = some .starting := by
  obtain rfl := Option.some.inj hc
  cases hs with
  | @launched fl =>
    refine ⟨?_, rfl⟩
    intro fl' hf' _
    obtain rfl := Option.some.inj hf'
    exact apply_createDisplay b.surface b.session.context.surfaces fl.config.displaySize f.realm
  | waiting hk | hookLost hk | exited hk => rcases hk.2 with ⟨hx, -⟩ | ⟨hx, -⟩ <;> cases hx

theorem bringUp_polled (h : f.Tidy none) (hb : f.bridge = some b)
    (hst : b.session.stage = some .launching) (hsh : b.Shown) (hlock : f.locked = true) (n : Nat)
    (url : String) :
    ∃ es, (∀ e ∈ es, e.command? = none) ∧ Polled es f (f.bringUp n url).1 (f.bringUp n url).2 := by
  unfold bringUp
  cases readInstance (f.scriptOf (.guest n)) with
  | error v =>
    have hp := launch_failed_polled h hb hst hsh hlock (.instantiate v.describe)
    exact ⟨_, by simp [Session.Event.command?], hp⟩
  | ok u =>
    have hr := report_goes h (.moduleReady url)
    have hb' : (f.report (.moduleReady url)).bridge = some b := hb
    have he : b.session.Enabled (.launched (.ok ())) := hst
    have hs := next_step he
    obtain ⟨es, hes, hm⟩ := hr.moves hb
    have ht := take_moves hr.tidy hb' hs rfl
    rw [Host.Progress.channel?_eq_none (hs.no_launch rfl)] at ht
    obtain ⟨hsh', hst'⟩ := take_launched_shown (f := f.report (.moduleReady url)) hs rfl
    have hg := runGuest_goes ht.tidy n
    rcases hrun : ((f.report (.moduleReady url)).take b
      (b.session.next (.launched (.ok ())))).runGuest n with ⟨result, g⟩
    rw [hrun] at hg
    obtain ⟨fs, hfs, hk⟩ := hg.moves rfl
    obtain ⟨c, hc, hd⟩ := hg.drifts.bridge_of_some rfl
    have he' : c.session.Enabled (.started result) := by
      show c.session.stage = _
      rw [Session.stage, hd.flight]
      exact hst'
    have hp := respond_polled hk.tidy hc he' rfl (by simp) rfl (hd.shown hsh')
      (hg.drifts.locked.trans hlock) fun _ => rfl
    have hall := ((hm.trans ht).trans hk).polled hp
    have hnext : b.session.launched (.ok ()) = b.session.next (.launched (.ok ())) := rfl
    simp only [hb', hnext, hrun]
    refine ⟨_, ?_, hall⟩
    have hnone : ∀ es : List Session.Event, (∀ e ∈ es, e.bystander = true) →
        ∀ e ∈ es, e.command? = none :=
      fun es hes e he => Session.Event.command?_of_bystander (hes e he)
    intro x hx
    simp only [List.mem_append, List.mem_singleton] at hx
    rcases hx with rfl | hx | rfl | hx
    · rfl
    · exact hnone fs hfs x hx
    · rfl
    · exact hnone es hes x hx

end Steps

theorem pollTask_running (f : Frame) :
    f.pollTask .running = ((f.respond Session.poll).1.isNone, f.respond Session.poll) := by
  simp only [pollTask]
  rcases f.respond Session.poll with ⟨_ | u, g⟩ <;> rfl

theorem conclude_rest (f : Frame) (b : Bridge) (t : Turn) :
    ∃ realm bridge locked, (f.conclude b t).2 = { f with realm, bridge, locked } := by
  simp only [conclude]
  split
  · next result _ =>
    obtain ⟨r, -, he⟩ := finish_eq (f.take b t) result
    exact ⟨r, _, false, he⟩
  · exact ⟨_, _, f.locked, rfl⟩

theorem respond_rest (f : Frame) (turn : Session → Turn) :
    ∃ realm bridge locked, (f.respond turn).2 = { f with realm, bridge, locked } := by
  unfold respond
  split
  · exact conclude_rest _ _ _
  · exact ⟨f.realm, f.bridge, false, rfl⟩

theorem respond_guests (f : Frame) (turn : Session → Turn) :
    (f.respond turn).2.guests = f.guests := by
  obtain ⟨realm, bridge, locked, he⟩ := respond_rest f turn
  rw [he]

theorem conclude_left (f : Frame) (b : Bridge) (t : Turn) :
    ∀ u ∈ (f.conclude b t).1, u = .running := by
  simp only [conclude]
  split
  · simp
  · simp [eq_comm]

theorem respond_left (f : Frame) (turn : Session → Turn) :
    ∀ u ∈ (f.respond turn).1, u = .running := by
  unfold respond
  split
  · exact conclude_left _ _ _
  · simp

/-- A command is taken up once: no poll leaves one behind. -/
theorem pollTask_left (f : Frame) (t : Task) : ∀ u ∈ (f.pollTask t).2.1, u.command? = none := by
  have hrunning : ∀ left : Option Task, (∀ u ∈ left, u = .running) →
      ∀ u ∈ left, u.command? = none := by
    rintro left hl u hu
    rw [hl u hu]
    rfl
  cases t with
  | command c w =>
    simp only [pollTask]
    split
    · simp
    · simp only [startCommand]
      split
      · simp
      · split
        · split
          · simp [Task.command?]
          · exact hrunning _ (respond_left _ _)
        · exact hrunning _ (conclude_left _ _ _)
  | loading n url =>
    simp only [pollTask]
    split
    · simp [Task.command?]
    · exact hrunning _ (respond_left _ _)
    · simp only [bringUp]
      split
      · exact hrunning _ (respond_left _ _)
      · split
        · simp
        · exact hrunning _ (respond_left _ _)
  | running =>
    rw [pollTask_running]
    exact hrunning _ (respond_left _ _)
  | watching n waited =>
    simp only [pollTask]
    split
    · split <;> simp [Task.command?]
    · simp [Task.command?]

theorem pollTask_guests {f : Frame} {b : Bridge} (h : f.Tidy none) (hb : f.bridge = some b)
    {t : Task} (ht : t.holds = true) (hserves : f.Serves t) :
    (f.pollTask t).2.2.guests.length = f.guests.length := by
  cases t with
  | command | watching => cases ht
  | running =>
    rw [pollTask_running, respond_guests]
  | loading n url =>
    obtain ⟨b', fl, hb', hf, hst, -⟩ := hserves
    obtain rfl := Option.some.inj (hb.symm.trans hb')
    simp only [pollTask]
    cases f.loadOf n with
    | pending => rfl
    | rejected v => exact congrArg List.length (respond_guests f _)
    | resolved =>
      simp only [bringUp]
      cases readInstance (f.scriptOf (.guest n)) with
      | error v => exact congrArg List.length (respond_guests f _)
      | ok u =>
        have hb₁ : (f.report (.moduleReady url)).bridge = some b := hb
        have he : b.session.Enabled (.launched (.ok ())) := Session.stage_eq_some.mpr ⟨fl, hf, hst⟩
        have hs := next_step he
        have ht := take_tidy (report_goes h (.moduleReady url)).tidy hb₁ hs rfl
        have hg := congrArg List.length (runGuest_goes ht n).drifts.arguments
        have hnext : b.session.launched (.ok ()) = b.session.next (.launched (.ok ())) := rfl
        simp only [hb₁, hnext, respond_guests]
        rw [List.length_map, List.length_map] at hg
        exact hg

theorem loading_polled {f : Frame} {b : Bridge} (h : f.Tidy none) (hb : f.bridge = some b)
    (hsh : b.Shown) (hlock : f.locked = true) {n : Nat} {url : String}
    (hs : f.Serves (.loading n url)) :
    ∃ es, (∀ e ∈ es, e.command? = none) ∧
      Polled es f (f.pollTask (.loading n url)).2.1 (f.pollTask (.loading n url)).2.2 := by
  obtain ⟨b', fl, hb', hf, hst, ha⟩ := hs
  obtain rfl := Option.some.inj (hb.symm.trans hb')
  have hstage : b.session.stage = some .launching := Session.stage_eq_some.mpr ⟨fl, hf, hst⟩
  simp only [pollTask]
  cases f.loadOf n with
  | pending =>
    have hm : Moves [] none f f :=
      ⟨h, .refl _, ⟨[], by simp, by simp⟩, ⟨b, b, hb, hb, .refl⟩, by simp⟩
    refine ⟨[], by simp, hm, hlock, ?_, by simp, ?_⟩
    · intro u hu
      obtain rfl := Option.mem_some_iff.mp hu
      exact ⟨b, fl, hb, hf, hst, ha⟩
    · intro c hc
      obtain rfl := Option.some.inj (hb.symm.trans hc)
      exact hsh
  | rejected v =>
    have hp := launch_failed_polled h hb hstage hsh hlock (.fetch url v.describe)
    exact ⟨_, by simp [Session.Event.command?], hp⟩
  | resolved => exact bringUp_polled h hb hstage hsh hlock n url

theorem running_polled {f : Frame} {b : Bridge} (h : f.Tidy none) (hb : f.bridge = some b)
    (hsh : b.Shown) (hlock : f.locked = true) (hs : f.Serves .running) :
    Polled [.poll] f (f.pollTask .running).2.1 (f.pollTask .running).2.2 := by
  obtain ⟨b', fl, hb', hf, hst⟩ := hs
  obtain rfl := Option.some.inj (hb.symm.trans hb')
  have he : b.session.Enabled .poll := Session.stage_eq_some.mpr ⟨fl, hf, hst⟩
  have hturn : ∀ s : Session, s.poll = s.next .poll := fun _ => rfl
  rw [pollTask_running]
  exact respond_polled h hb he rfl (by simp) rfl hsh hlock hturn

theorem pollTask_polled {f : Frame} {b : Bridge} (h : f.Tidy none) (hb : f.bridge = some b)
    (hsh : b.Shown) {t : Task} (hlock : f.locked = t.holds)
    (hserves : t.holds = true → f.Serves t) (hfree : t.holds = false → b.session.flight = none)
    (hw : ∀ n waited, t ≠ .watching n waited) :
    ∃ es, es.filterMap Session.Event.command? = t.command?.toList ∧
      Polled es f (f.pollTask t).2.1 (f.pollTask t).2.2 := by
  have hnone : ∀ es : List Session.Event, (∀ e ∈ es, e.command? = none) →
      es.filterMap Session.Event.command? = [] :=
    fun es hes => List.filterMap_eq_nil_iff.mpr hes
  cases t with
  | watching n waited => exact absurd rfl (hw n waited)
  | command c w =>
    have hunlocked : f.locked = false := hlock
    obtain ⟨es, hes, hp⟩ := startCommand_polled h hb (hfree rfl) hsh c w
    refine ⟨es ++ [.command w c], ?_, ?_⟩
    · rw [List.filterMap_append, hnone es hes]
      rfl
    · simp only [pollTask, hunlocked, Bool.false_eq_true, if_false]
      exact hp
  | loading n url =>
    obtain ⟨es, hes, hp⟩ := loading_polled h hb hsh hlock (hserves rfl)
    exact ⟨es, hnone es hes, hp⟩
  | running => exact ⟨[.poll], rfl, running_polled h hb hsh hlock (hserves rfl)⟩

end Frame

end Chip8Frame.Browser
