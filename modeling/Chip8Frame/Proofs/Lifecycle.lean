import Chip8Frame.Proofs.Attempt

/-! The state of a context fixes what is mounted and whether uncaught errors are recorded, at
every point of every history. Each stretch of a boot is shown to keep the agreement on its own;
a history is then an induction over its events. -/

namespace Chip8Frame.Host

open Surface (Headless Manager Mirrors)

/-- The separately kept parts of a context agree with its state, and with the page. -/
structure Context.Sound (h : Context) (b : Headless) : Prop where
  mirrors : Mirrors b h.surfaces
  booting : h.state = .booting → h.surfaces.live = none
  running : h.state = .running → h.surfaces.live = some .display
  faulted : ∀ r, h.state = .faulted r →
    h.surfaces.live = some .diagnostic ∧ b.diagnostic = some r.banner
  idle : h.state = .idle → h.surfaces.live ≠ some .diagnostic
  armed : h.latch.armed = true ↔ h.state = .running

namespace Context.Sound

variable {h : Context} {b : Headless}

theorem new (o : Boot.Options) :
    (Context.new o).1.Sound (Headless.new.replay (Context.new o).2) where
  mirrors := .bound
  booting := by simp [Context.new]
  running := by simp [Context.new]
  faulted := by simp [Context.new]
  idle := by simp [Context.new, Manager.bindCapture, Manager.new]
  armed := by simp [Context.new, Latch.new]

theorem beginBoot (hs : h.Sound b) (ha : h.state.acceptsBoot = true) (c : Boot.Config) :
    (h.beginBoot c).1.Sound (b.replay (h.beginBoot c).2) where
  mirrors := by
    simpa [Context.beginBoot, Headless.replay_append] using hs.mirrors.clear.removeBanner
  booting := by simp [Context.beginBoot]
  running := by simp [Context.beginBoot]
  faulted := by simp [Context.beginBoot]
  idle := by simp [Context.beginBoot]
  armed := by
    have hn : h.state ≠ .running := by
      intro hr
      simp [hr, State.acceptsBoot] at ha
    simpa [Context.beginBoot] using mt hs.armed.mp hn

theorem launchFailed (hs : h.Sound b) (hb : h.state = .booting) (run : Nat) (e : GuestError) :
    (h.launchFailed run e).1.Sound (b.replay (h.launchFailed run e).2) where
  mirrors := hs.mirrors
  booting := by simp [Context.launchFailed]
  running := by simp [Context.launchFailed]
  faulted := by simp [Context.launchFailed]
  idle := by simp [Context.launchFailed, hs.booting hb]
  armed := by
    have hn := mt hs.armed.mp (by simp [hb])
    simpa [Context.launchFailed] using hn

theorem launched (hs : h.Sound b) (c : Boot.Config) :
    (h.launched c).1.Sound (b.replay (h.launched c).2) where
  mirrors := hs.mirrors.createDisplay c.displaySize
  booting := by simp [Context.launched]
  running := by simp [Context.launched]
  faulted := by simp [Context.launched]
  idle := by simp [Context.launched]
  armed := by simp [Context.launched, Latch.arm]

theorem startFailed (hs : h.Sound b) (run : Nat) (e : GuestError) :
    (h.startFailed run e).1.Sound (b.replay (h.startFailed run e).2) where
  mirrors := hs.mirrors.clear
  booting := by simp [Context.startFailed]
  running := by simp [Context.startFailed]
  faulted := by simp [Context.startFailed]
  idle := by simp [Context.startFailed]
  armed := by simp [Context.startFailed, Latch.disarm]

theorem hookLost (hs : h.Sound b) (hr : h.state = .running) (run : Nat) :
    (h.hookLost run).1.Sound (b.replay (h.hookLost run).2) where
  mirrors := hs.mirrors
  booting := by simp [Context.hookLost]
  running := by simp [Context.hookLost]
  faulted := by simp [Context.hookLost]
  idle := by simp [Context.hookLost, hs.running hr]
  armed := by simp [Context.hookLost, Latch.disarm]

theorem exited (hs : h.Sound b) (hr : h.state = .running) (run : Nat) (c : Boot.Config)
    (code : Int32) :
    (h.exited run c code).1.Sound (b.replay (h.exited run c code).2.1) := by
  unfold Context.exited
  cases FaultCode.ofExit? code with
  | none =>
    exact {
      mirrors := hs.mirrors
      booting := by simp
      running := by simp
      faulted := by simp
      idle := by simp [hs.running hr]
      armed := by simp [Latch.disarm] }
  | some k =>
    exact {
      mirrors := hs.mirrors.renderFault _
      booting := by simp
      running := by simp
      faulted := by
        intro r hf
        obtain rfl := State.faulted.inj hf
        exact ⟨rfl, (hs.mirrors.renderFault_page _).2.1⟩
      idle := by simp
      armed := by simp [Latch.disarm] }

theorem disarmed (hs : h.Sound b) (hn : h.state ≠ .running) : h.latch.armed = false := by
  have ha := mt hs.armed.mp hn
  simpa using ha

theorem showBanner (hs : h.Sound b) : h.showBanner.1.Sound (b.replay h.showBanner.2) where
  mirrors := hs.mirrors.showBanner _
  booting := by simpa [Context.showBanner] using hs.booting
  running := by simpa [Context.showBanner] using hs.running
  faulted := by
    intro r hr
    have hp := (Mirrors.showBanner_page (b := b) (m := h.surfaces) h.options.bannerVersion).2
    simpa [Context.showBanner, hp] using hs.faulted r hr
  idle := by simpa [Context.showBanner] using hs.idle
  armed := hs.armed

theorem congr {k : Context} (hs : h.Sound b) (hst : k.state = h.state)
    (hsu : k.surfaces = h.surfaces) (hl : k.latch.armed = h.latch.armed) : k.Sound b where
  mirrors := hsu ▸ hs.mirrors
  booting := by simpa [hst, hsu] using hs.booting
  running := by simpa [hst, hsu] using hs.running
  faulted := by simpa [hst, hsu] using hs.faulted
  idle := by simpa [hst, hsu] using hs.idle
  armed := by simpa [hst, hl] using hs.armed

end Context.Sound

def Stage.state : Stage → State
  | .launching => .booting
  | .starting | .running => .running

theorem value_of_ofExit {code : Int32} {k : FaultCode} (h : FaultCode.ofExit? code = some k) :
    code = k.value := by
  unfold FaultCode.ofExit? at h
  split at h
  · cases h
  · obtain rfl := Option.some.inj h
    rfl

@[simp] theorem replay_record (b : Headless) (l : Latch) (message : String) :
    b.replay (l.record message).2 = b :=
  Headless.replay_of_silent (l.record_silent message) b

@[simp] theorem record_armed (l : Latch) (message : String) :
    (l.record message).1.armed = l.armed := by
  unfold Latch.record
  split <;> rfl

namespace Session

variable {s : Session} {b : Headless} {e : Event} {t : Turn} {f : Flight}

/-- What a boot in flight has made of its context and of the page. -/
structure Flying (s : Session) (b : Headless) (f : Flight) : Prop where
  state : s.context.state = f.stage.state
  bare : s.context.surfaces.bannerShown = false
  display : f.stage ≠ .launching → b.display = some f.config.displaySize

theorem Looks.backend (h : s.Looks e f) : e.backend b = b := by
  rcases h.2 with ⟨rfl, -⟩ | ⟨rfl, -⟩ <;> rfl

theorem Looks.started (h : s.Looks e f) : f.stage ≠ .launching := by
  rcases h.2 with ⟨-, hs⟩ | ⟨-, hs⟩ <;> simp [hs]

theorem Looks.state (h : s.Looks e f) (hf : s.Flying b f) : s.context.state = .running := by
  rw [hf.state]
  rcases h.2 with ⟨-, hs⟩ | ⟨-, hs⟩ <;> rw [hs] <;> rfl

theorem Step.sound (hs : Step s e t) (h : s.context.Sound b)
    (hf : ∀ f, s.flight = some f → s.Flying b f) :
    t.session.context.Sound ((e.backend b).replay t.effects) := by
  cases hs with
  | bannerShown => exact h.showBanner
  | nothingToRestart | refused => exact h
  | busy => exact h.congr rfl rfl rfl
  | @accepted _ _ r config _ _ _ ha =>
    have hr : (s.remember r).context.Sound b := h.congr rfl rfl rfl
    exact hr.beginBoot ha config
  | @launchFailed f e hx hst =>
    have hb : s.context.state = .booting := by rw [(hf f hx).state, hst]; rfl
    exact h.launchFailed hb f.run e
  | launched => exact h.launched _
  | startFailed => exact h.startFailed _ _
  | waiting hl =>
    rw [hl.backend]
    exact h
  | hookLost hl =>
    rw [hl.backend]
    exact h.hookLost (hl.state (hf _ hl.1)) _
  | exited hl =>
    rw [hl.backend]
    exact h.exited (hl.state (hf _ hl.1)) _ _ _
  | recorded =>
    rw [replay_record]
    exact h.congr rfl rfl (record_armed _ _)
  | recordedLate =>
    rw [replay_record]
    exact h
  | reset => exact Context.Sound.new _
  | _ => exact h

theorem Step.flying (hs : Step s e t) (h : s.context.Sound b)
    (hf : ∀ f, s.flight = some f → s.Flying b f) {g : Flight}
    (hg : t.session.flight = some g) :
    t.session.Flying ((e.backend b).replay t.effects) g := by
  cases hs with
  | bannerShown hn | nothingToRestart hn | refused hn | busy hn | reset hn =>
    have hx := hn.symm.trans hg
    cases hx
  | launchFailed | startFailed | hookLost | exited | abandoned => cases hg
  | @accepted _ _ r config =>
    obtain rfl := Option.some.inj hg
    exact ⟨rfl, by simp [Context.beginBoot], by simp⟩
  | @launched f hx =>
    obtain rfl := Option.some.inj hg
    have hd := (h.mirrors.createDisplay_page f.config.displaySize).1
    exact ⟨rfl, by simpa [Context.launched] using (hf f hx).bare, fun _ => hd⟩
  | @waiting e f hl =>
    obtain rfl := Option.some.inj hg
    have hx := hf f hl.1
    rw [hl.backend]
    exact ⟨hl.state hx, hx.bare, fun _ => hx.display hl.started⟩
  | recorded =>
    have hx := hf g hg
    rw [replay_record]
    exact ⟨hx.state, hx.bare, hx.display⟩
  | recordedLate =>
    have hx := hf g hg
    rw [replay_record]
    exact ⟨hx.state, hx.bare, hx.display⟩
  | _ =>
    have hx := hf g hg
    exact ⟨hx.state, hx.bare, hx.display⟩

theorem sound_flying {o : Boot.Options} {es : List Event} (h : Possible o es) :
    (after o es).context.Sound (shown o es) ∧
      ∀ f, (after o es).flight = some f → (after o es).Flying (shown o es) f := by
  induction es with
  | nil => exact ⟨Context.Sound.new o, by simp [after, Session.new]⟩
  | cons e es ih =>
    have hs := next_step h.1
    obtain ⟨hc, hf⟩ := ih h.2
    rw [after_cons, shown_cons]
    exact ⟨hs.sound hc hf, fun g hg => hs.flying hc hf hg⟩

theorem options_after (o : Boot.Options) {es : List Event} (h : Possible o es) :
    (after o es).context.options = o := by
  induction es with
  | nil => rfl
  | cons e es ih =>
    have hs := next_step h.1
    have ho := ih h.2
    rw [after_cons]
    generalize (after o es).next e = t at hs
    cases hs with
    | exited =>
      simp only [landed, Context.exited]
      split <;> exact ho
    | _ => exact ho

theorem fault_of_latest {o : Boot.Options} {es : List Event} (h : Possible o es) {r : Fault}
    (hr : (after o es).context.state = .faulted r) :
    ∃ a, latest o es = some a ∧ firstSignal a.channel a.since = some r.code.value ∧
      r = Fault.of r.code a.config.program := by
  induction es with
  | nil => cases hr
  | cons e es ih =>
    have hn : (after o (e :: es)).flight = none := by
      cases hf : (after o (e :: es)).flight with
      | none => rfl
      | some f =>
        have hx := ((sound_flying h).2 f hf).state
        rw [hr] at hx
        cases hg : f.stage <;> simp [hg, Stage.state] at hx
    have hs := next_step h.1
    have hne : e ≠ .hardReset := by
      rintro rfl
      cases hr
    have hl := latest_of_grounded h.1 hne hn
    rw [after_cons] at hr
    generalize (after o es).next e = t at hs hr
    cases hs with
    | @exited e f code hx hp =>
      obtain ⟨a, ha, hi⟩ := in_flight h.2 hx.1
      have hc : firstSignal a.channel a.since = some code := exitOf_eq_code.mp (hi.poll ▸ hp)
      refine ⟨a.add e, by rw [hl, ha]; rfl, ?_⟩
      simp only [landed, Context.exited] at hr
      split at hr
      · cases hr
      · next k hk =>
        obtain rfl := State.faulted.inj hr
        have hv : code = k.value := value_of_ofExit hk
        exact ⟨firstSignal_cons (hv ▸ hc) e, by simp only [Attempt.add, hi.config, Fault.of]⟩
    | accepted | launchFailed | launched | startFailed | hookLost | reset => cases hr
    | _ =>
      obtain ⟨a, ha, hc, hp⟩ := ih h.2 hr
      exact ⟨a.add _, by rw [hl, ha]; rfl, firstSignal_cons hc _, hp⟩

/-- At every point of every history the state tells what is mounted, and whether uncaught errors
are recorded. -/
theorem state_fixes_surface {o : Boot.Options} {es : List Event} (h : Possible o es) :
    Mirrors (shown o es) (after o es).context.surfaces ∧
    ((after o es).context.state = .booting → (after o es).context.surfaces.live = none) ∧
    ((after o es).context.state = .running →
      (after o es).context.surfaces.live = some .display) ∧
    ((∃ r, (after o es).context.state = .faulted r) ↔
      (after o es).context.surfaces.live = some .diagnostic) ∧
    (∀ r, (after o es).context.state = .faulted r →
      (shown o es).diagnostic = some r.banner ∧
      ∃ a, latest o es = some a ∧ firstSignal a.channel a.since = some r.code.value ∧
        r = Fault.of r.code a.config.program) ∧
    ((after o es).context.state = .idle →
      (after o es).context.surfaces.live = none ∨
      (after o es).context.surfaces.live = some .display) ∧
    ((after o es).context.latch.armed = true ↔ (after o es).context.state = .running) := by
  have hs := (sound_flying h).1
  refine ⟨hs.mirrors, hs.booting, hs.running, ⟨?_, ?_⟩, ?_, ?_, hs.armed⟩
  · rintro ⟨r, hr⟩
    exact (hs.faulted r hr).1
  · intro hl
    cases hst : (after o es).context.state with
    | idle => exact absurd hl (hs.idle hst)
    | booting =>
      rw [hs.booting hst] at hl
      cases hl
    | running =>
      rw [hs.running hst] at hl
      cases hl
    | faulted r => exact ⟨r, rfl⟩
  · intro r hr
    exact ⟨(hs.faulted r hr).2, fault_of_latest h hr⟩
  · intro hi
    have hn := hs.idle hi
    cases hl : (after o es).context.surfaces.live with
    | none => exact .inl rfl
    | some kind =>
      cases kind with
      | display => exact .inr rfl
      | diagnostic => exact absurd hl hn

theorem invalid_opcode_shows_diagnostic :
    Possible .default Sample.crashed ∧
    (after .default Sample.crashed).context.state =
      .faulted (Fault.of ⟨Exit.invalidOpcode, by decide⟩ "PONG") ∧
    (shown .default Sample.crashed).diagnostic =
      some (Fault.of ⟨Exit.invalidOpcode, by decide⟩ "PONG").banner := by
  have hp : Possible .default Sample.crashed := by decide +kernel
  have hf : (after .default Sample.crashed).context.state =
      .faulted (Fault.of ⟨Exit.invalidOpcode, by decide⟩ "PONG") := by decide +kernel
  obtain ⟨-, -, -, -, hd, -, -⟩ := state_fixes_surface hp
  exact ⟨hp, hf, (hd _ hf).1⟩

end Session

end Chip8Frame.Host
