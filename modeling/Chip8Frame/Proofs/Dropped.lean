import Chip8Frame.Proofs.Renewal
import Chip8Frame.Proofs.RestartTarget

/-! A boot that is dropped where it waits. Its context goes on waiting for an exit that nobody will
tell it of: it turns every boot away and touches neither display nor diagnostic, whatever the guest
does after all. A hard reset is the only way out, and it starts over. -/

namespace Chip8Frame.Host.Session

def launchCount (o : Boot.Options) : List Event → Nat
  | [] => 0
  | e :: es =>
      match e with
      | .hardReset => 0
      | e => ((after o es).next e).progress.launch?.toList.length + launchCount o es

/-- The session `u` waits for nothing, in the state in which `s` was. -/
structure Frozen (s u : Session) : Prop where
  stuck : u.Stuck
  state : u.context.state = s.context.state
  runs : u.context.runs = s.context.runs
  live : u.context.surfaces.live = s.context.surfaces.live
  armed : u.context.latch.armed = s.context.latch.armed

/-- The turn neither launches nor starts a guest, and its calls to the page mount no more than a
banner. -/
structure Inert (t : Turn) : Prop where
  launch : ∀ l, t.progress ≠ .launch l
  start : t.progress ≠ .start
  calls : ∀ call, .surface call ∈ t.effects → ∃ text, call = .mountBanner text

section Steps

variable {s u : Session} {e : Event} {t : Turn}

theorem Inert.of_pending (h : t.progress = .pending)
    (hc : ∀ call, .surface call ∈ t.effects → ∃ text, call = .mountBanner text) : Inert t where
  launch l := by simp [h]
  start := by simp [h]
  calls := hc

theorem Inert.of_done {result : Except BootError Outcome} (h : t.progress = .done result)
    (hc : ∀ call, .surface call ∈ t.effects → ∃ text, call = .mountBanner text) : Inert t where
  launch l := by simp [h]
  start := by simp [h]
  calls := hc

private theorem showBanner_calls (h : Context) {call : Surface.Call}
    (hc : .surface call ∈ h.showBanner.2) : ∃ text, call = .mountBanner text := by
  simp only [Context.showBanner, Surface.Manager.showBanner] at hc
  split at hc
  · simp [Surface.Manager.unchanged] at hc
  · simp only [List.mem_cons, reduceCtorEq, List.not_mem_nil, or_false, false_or,
      Effect.surface.injEq] at hc
    exact ⟨_, hc⟩

theorem Stuck.no_flight (h : s.Stuck) {f : Flight} : s.flight ≠ some f := by
  simp [h.1]

/-- Nothing but a hard reset moves a context whose boot was dropped. -/
theorem Step.frozen (hs : Step u e t) (h : Frozen s u) (hr : e ≠ .hardReset) :
    Frozen s t.session ∧ Inert t := by
  have hstuck := hs.stuck h.stuck hr
  have hn : ∀ {f}, u.flight ≠ some f := h.stuck.no_flight
  obtain ⟨⟨-, hb⟩, hst, hru, hl, ha⟩ := h
  cases hs with
  | bannerShown =>
    have hlive : u.context.showBanner.1.surfaces.live = s.context.surfaces.live := by
      simpa [Context.showBanner] using hl
    exact ⟨⟨hstuck, hst, hru, hlive, ha⟩, .of_done rfl fun _ hc => showBanner_calls u.context hc⟩
  | nothingToRestart => exact ⟨⟨hstuck, hst, hru, hl, ha⟩, .of_done rfl (by simp [refuse])⟩
  | refused | busy => exact ⟨⟨hstuck, hst, hru, hl, ha⟩, .of_done rfl (by simp [refuse])⟩
  | accepted _ _ _ hx =>
    rw [hb] at hx
    cases hx
  | launchFailed hf | launched hf | startFailed hf | abandoned hf => exact absurd hf hn
  | waiting hf | hookLost hf | exited hf => exact absurd hf.1 hn
  | signalled | cloned | dropped =>
    exact ⟨⟨hstuck, hst, hru, hl, ha⟩, .of_pending rfl (by simp)⟩
  | recorded =>
    exact ⟨⟨hstuck, hst, hru, hl, by simpa using ha⟩,
      .of_pending rfl fun _ hc => absurd hc (Latch.record_silent _ _ _)⟩
  | recordedLate =>
    exact ⟨⟨hstuck, hst, hru, hl, ha⟩,
      .of_pending rfl fun _ hc => absurd hc (Latch.record_silent _ _ _)⟩
  | reset => exact absurd rfl hr

theorem Stuck.refuses (h : s.Stuck) {w : Binary64} {c : Command} {r : Boot.Request}
    {config : Boot.Config} (hr : s.requestOf c = some r)
    (hc : r.parameters.resolve w s.context.options = .ok config) :
    s.command w c = (s.remember r).refuse (.busy s.context.state.name)
      [.note (.bootRefused s.context.state.name)] :=
  (Step.busy h.1 hr hc h.2).next_eq

theorem Step.frozen_of_abandon (hs : Step s .abandon t) {b : Surface.Headless}
    (hf : ∀ f, s.flight = some f → s.Flying b f) :
    Frozen s t.session ∧ (s.context.state = .booting ∨ s.context.state = .running) := by
  cases hs with
  | @abandoned f hx hst =>
    have hstate := (hf f hx).state
    cases hg : f.stage with
    | launching =>
      rw [hg] at hstate
      have hb : s.context.state.acceptsBoot = false := by rw [hstate]; rfl
      exact ⟨⟨⟨rfl, hb⟩, rfl, rfl, rfl, rfl⟩, .inl hstate⟩
    | starting => exact absurd hg hst
    | running =>
      rw [hg] at hstate
      have hb : s.context.state.acceptsBoot = false := by rw [hstate]; rfl
      exact ⟨⟨⟨rfl, hb⟩, rfl, rfl, rfl, rfl⟩, .inr hstate⟩
  | waiting hl | hookLost hl | exited hl =>
    rcases hl.2 with ⟨hx, -⟩ | ⟨hx, -⟩ <;> cases hx

theorem Step.runs (hs : Step s e t) (hr : e ≠ .hardReset) :
    t.session.context.runs = t.progress.launch?.toList.length + s.context.runs := by
  cases hs with
  | accepted => simp [remember, Context.beginBoot, Progress.launch?, Nat.add_comm]
  | exited =>
    simp only [landed, Context.exited, Progress.launch?]
    split <;> simp
  | reset => exact absurd rfl hr
  | _ => simp [refuse, remember, landed, Progress.launch?, setChannel, cloneHook, dropHook,
      Context.showBanner, Context.launchFailed, Context.launched, Context.startFailed,
      Context.hookLost]

end Steps

section Histories

variable {o : Boot.Options} {es fs pre : List Event}

theorem runs_eq_launchCount (h : Possible o es) :
    (after o es).context.runs = launchCount o es := by
  induction es with
  | nil => rfl
  | cons e es ih =>
    rw [after_cons]
    by_cases hr : e = .hardReset
    · subst hr
      rfl
    · rw [(next_step h.1).runs hr, ih h.2]
      cases e <;> first | rfl | exact absurd rfl hr

theorem frozen_since_abandon (h : Possible o (fs ++ .abandon :: pre)) (hr : .hardReset ∉ fs) :
    Frozen (after o pre) (after o (fs ++ .abandon :: pre)) := by
  induction fs with
  | nil => exact ((next_step h.1).frozen_of_abandon (sound_flying h.2).2).1
  | cons e fs ih =>
    rw [List.cons_append] at h ⊢
    have hx := ih h.2 fun hm => hr (List.mem_cons_of_mem _ hm)
    have hne : e ≠ .hardReset := by
      rintro rfl
      exact hr List.mem_cons_self
    exact ((next_step h.1).frozen hx hne).1

/-- What becomes of a context whose boot was dropped, read off one history. -/
structure DropLaw (o : Boot.Options) (es : List Event) : Prop where
  waits : ∀ fs pre, es = fs ++ .abandon :: pre → .hardReset ∉ fs →
    Frozen (after o pre) (after o es) ∧
      ((after o pre).context.state = .booting ∨ (after o pre).context.state = .running)
  inert : ∀ fs pre e, es = fs ++ .abandon :: pre → .hardReset ∉ fs → (after o es).Enabled e →
    e ≠ .hardReset → Inert ((after o es).next e)
  refuses : ∀ fs pre w c r config, es = fs ++ .abandon :: pre → .hardReset ∉ fs →
    (after o es).requestOf c = some r → r.parameters.resolve w o = .ok config →
    ((after o es).command w c).progress =
      .done (.error (.busy (after o pre).context.state.name))
  resets : (after o es).Enabled .hardReset → (after o (.hardReset :: es)).context =
    { options := o
      state := .idle
      surfaces := { live := none, bannerShown := false, captureBound := true }
      latch := .new
      runs := 0
      lastRequest := none }
  startsOver : ∀ fs pre, es = fs ++ .hardReset :: pre → StartsOver o pre fs
  runs : (after o es).context.runs = launchCount o es

theorem drop_law (h : Possible o es) : DropLaw o es where
  waits := by
    rintro fs pre rfl hr
    have hpre : Possible o (.abandon :: pre) := h.suffix
    have hs := (next_step hpre.1).frozen_of_abandon (sound_flying hpre.2).2
    exact ⟨frozen_since_abandon h hr, hs.2⟩
  inert := by
    rintro fs pre e rfl hr he hne
    exact ((next_step he).frozen (frozen_since_abandon h hr) hne).2
  refuses := by
    rintro fs pre w c r config rfl hr hq hc
    have hfrozen := frozen_since_abandon h hr
    rw [← options_after o h] at hc
    rw [hfrozen.stuck.refuses hq hc, ← hfrozen.state]
    rfl
  resets := by
    intro he
    have hn := (Step.reset (stage_eq_none.mp he)).next_eq
    rw [options_after o h] at hn
    rw [after_cons, hn]
    rfl
  startsOver := by
    rintro fs pre rfl
    exact starts_over h
  runs := runs_eq_launchCount h

end Histories

def Sample.dropped : List Event := .signal 0 Exit.clean :: .abandon :: Sample.booted

theorem drop_law_of_late_exit :
    Possible .default Sample.dropped ∧
    ((after .default Sample.dropped).command Sample.width .restart).progress =
      .done (.error (.busy "running")) ∧
    (after .default (.hardReset :: Sample.dropped)).context.state = .idle := by
  have hp : Possible .default Sample.dropped := by decide +kernel
  have hr : (after .default Sample.dropped).requestOf .restart =
      some ⟨.message, Sample.parameters "PONG"⟩ := by decide +kernel
  have hstate : (after .default Sample.booted).context.state = .running := by decide +kernel
  have hreset : (after .default Sample.dropped).Enabled .hardReset := by decide +kernel
  obtain ⟨config, hc⟩ : ∃ config,
      (Sample.parameters "PONG").resolve Sample.width .default = .ok config := by
    have hok : ((Sample.parameters "PONG").resolve Sample.width .default).isOk = true := by
      decide +kernel
    cases hc : (Sample.parameters "PONG").resolve Sample.width .default with
    | ok config => exact ⟨config, rfl⟩
    | error e =>
      rw [hc] at hok
      cases hok
  have hb := (drop_law hp).refuses [.signal 0 Exit.clean] _ _ _ _ config rfl (by simp) hr hc
  rw [hstate] at hb
  exact ⟨hp, hb, congrArg Context.state ((drop_law hp).resets hreset)⟩

end Chip8Frame.Host.Session
