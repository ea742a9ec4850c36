import Chip8Frame.Proofs.Lifecycle
import Chip8Frame.Proofs.StaleHooks

/-! The result of a boot is a function of what happened since its command: a failed launch, else a
failed entry point, else the first signal on its channel, else the loss of all hooks. A boot
completes with that result at the first step at which it can see it, and its hooks are deaf from
then on. -/

namespace Chip8Frame.Host.Session

open Surface (Headless)

def outcomeOf (program : String) (code : Int32) : Outcome :=
  match FaultCode.ofExit? code with
  | none => .clean
  | some k => .faulted (Fault.of k program)

/-- The result of a boot by a failed launch, by a failed entry point, and by what its exit
channel tells, in this order. -/
def resultOf (program : String) :
    Option GuestError → Option GuestError → Exit.Wait → Option (Except BootError Outcome)
  | some e, _, _ => some (.error (.guest e))
  | none, some e, _ => some (.error (.guest e))
  | none, none, .code code => some (.ok (outcomeOf program code))
  | none, none, .dropped => some (.error .exitHookDropped)
  | none, none, .pending => none

/-- The result of a boot, read off the events since its command. -/
def verdict (program : String) (n : Nat) (es : List Event) :
    Option (Except BootError Outcome) :=
  resultOf program (es.findSome? Event.launchFailure?) (es.findSome? Event.startFailure?)
    (exitOf n es)

/-- A boot in flight can complete at such an event and at no other. -/
def Event.concludes : Event → Bool
  | .launched (.error _) | .started _ | .poll => true
  | _ => false

/-- What a completed boot leaves of its context and on the page. -/
def Settled (h : Context) (b : Headless) (c : Boot.Config) : Except BootError Outcome → Prop
  | .error (.guest _) =>
      h.state = .idle ∧ h.surfaces.live = none ∧ b.display = none ∧ b.diagnostic = none
  | .error .exitHookDropped => h.state = .idle ∧ b.display = some c.displaySize
  | .ok .clean =>
      h.state = .idle ∧ h.surfaces.live = some .display ∧ b.display = some c.displaySize
  | .ok (.faulted r) =>
      h.state = .faulted r ∧ h.surfaces.live = some .diagnostic ∧ b.diagnostic = some r.banner
  | _ => False

section Results

variable {s : Session} {b : Headless} {e : Event} {t : Turn} {a : Attempt} {f : Flight}

theorem exited_outcome (h : Context) (run : Nat) (c : Boot.Config) (code : Int32) :
    (h.exited run c code).2.2 = outcomeOf c.program code := by
  unfold Context.exited outcomeOf
  cases FaultCode.ofExit? code <;> rfl

private theorem findSome_since {g : Event → Option GuestError} (h : ∀ x ∈ a.since, g x = none)
    (e : Event) : (e :: a.since).findSome? g = g e := by
  have hn : a.since.findSome? g = none := List.findSome?_eq_none_iff.mpr h
  rw [List.findSome?_cons, hn]
  cases g e <;> rfl

theorem InFlight.verdict (hi : InFlight s a f) (program : String) (e : Event) :
    verdict program a.channel (e :: a.since) =
      resultOf program e.launchFailure? e.startFailure? (exitOf a.channel (e :: a.since)) := by
  unfold Session.verdict
  rw [findSome_since hi.launched, findSome_since hi.started]

theorem InFlight.look (hi : InFlight s a f) (hl : s.Looks e f) (program : String) :
    Session.verdict program a.channel (e :: a.since) =
      resultOf program none none (s.channel f.channel).poll.1 := by
  rw [hi.verdict, hi.poll]
  rcases hl.2 with ⟨rfl, -⟩ | ⟨rfl, -⟩
  · rfl
  · rfl

/-- At each event at which a boot can complete, it does so exactly if it has a result. -/
theorem InFlight.completes (hi : InFlight s a f) (hf : s.flight = some f) (hs : Step s e t)
    (hc : e.concludes = true) (result : Except BootError Outcome) :
    t.progress = .done result ↔
      Session.verdict a.config.program a.channel (e :: a.since) = some result := by
  cases hs with
  | launchFailed | startFailed =>
    rw [hi.verdict]
    exact ⟨fun h => congrArg some (Progress.done.inj h),
      fun h => congrArg Progress.done (Option.some.inj h)⟩
  | waiting hl hp =>
    obtain rfl := Option.some.inj (hf.symm.trans hl.1)
    rw [hi.look hl, hp]
    simp [resultOf]
  | hookLost hl hp =>
    obtain rfl := Option.some.inj (hf.symm.trans hl.1)
    rw [hi.look hl, hp]
    simp [resultOf]
  | exited hl hp =>
    obtain rfl := Option.some.inj (hf.symm.trans hl.1)
    rw [hi.look hl, hp, exited_outcome, hi.config]
    simp [resultOf]
  | _ => cases hc

theorem Step.concludes (hs : Step s e t) (hf : s.flight = some f)
    {result : Except BootError Outcome} (hp : t.progress = .done result) :
    e.concludes = true := by
  cases hs with
  | bannerShown hn | nothingToRestart hn | refused hn | busy hn =>
    have hx := hn.symm.trans hf
    cases hx
  | launchFailed | startFailed => rfl
  | hookLost hl | exited hl =>
    rcases hl.2 with ⟨rfl, -⟩ | ⟨rfl, -⟩
    · rfl
    · rfl
  | _ => cases hp

private theorem settled_bare {h : Context} (hs : h.Sound b) (hst : h.state = .idle)
    (hl : h.surfaces.live = none) (c : Boot.Config) (e : GuestError) :
    Settled h b c (.error (.guest e)) := by
  refine ⟨hst, hl, ?_, ?_⟩
  · exact hs.mirrors.display_eq_none (by simp [hl])
  · exact hs.mirrors.diagnostic_eq_none (by simp [hl])

private theorem settled_exit {h : Context} (hs : h.Sound b) (hst : h.state = .running)
    (c : Boot.Config) (hd : b.display = some c.displaySize) (run : Nat) (code : Int32) :
    Settled (h.exited run c code).1 (b.replay (h.exited run c code).2.1) c
      (.ok (h.exited run c code).2.2) := by
  unfold Context.exited
  cases FaultCode.ofExit? code with
  | none => exact ⟨rfl, hs.running hst, hd⟩
  | some k => exact ⟨rfl, rfl, (hs.mirrors.renderFault_page _).2.1⟩

private theorem exited_state (h : Context) (run : Nat) (c : Boot.Config) (code : Int32) :
    (h.exited run c code).1.state ≠ .running := by
  unfold Context.exited
  cases FaultCode.ofExit? code <;> simp

theorem Step.settled (hs : Step s e t) (h : s.context.Sound b)
    (hfly : ∀ f, s.flight = some f → s.Flying b f) (hf : s.flight = some f)
    {result : Except BootError Outcome} (hp : t.progress = .done result) :
    Settled t.session.context ((e.backend b).replay t.effects) f.config result ∧
      t.session.context.latch.armed = false ∧ t.session.flight = none := by
  have ht := hs.sound h hfly
  have hx := hfly f hf
  cases hs with
  | bannerShown hn | nothingToRestart hn | refused hn | busy hn =>
    have hx := hn.symm.trans hf
    cases hx
  | launchFailed hf' hst =>
    obtain rfl := Option.some.inj (hf.symm.trans hf')
    obtain rfl := Progress.done.inj hp
    have hl : s.context.surfaces.live = none := h.booting (by rw [hx.state, hst]; rfl)
    have ha := ht.disarmed (by simp [Context.launchFailed, landed])
    exact ⟨settled_bare ht rfl hl f.config _, ha, rfl⟩
  | startFailed hf' hst =>
    obtain rfl := Option.some.inj (hf.symm.trans hf')
    obtain rfl := Progress.done.inj hp
    have hl : s.context.surfaces.clear.manager.live = none := Surface.Manager.clear_live _
    exact ⟨settled_bare ht rfl hl f.config _, rfl, rfl⟩
  | hookLost hl =>
    obtain rfl := Option.some.inj (hf.symm.trans hl.1)
    obtain rfl := Progress.done.inj hp
    rw [hl.backend]
    exact ⟨⟨rfl, hx.display hl.started⟩, rfl, rfl⟩
  | exited hl =>
    obtain rfl := Option.some.inj (hf.symm.trans hl.1)
    obtain rfl := Progress.done.inj hp
    rw [hl.backend]
    exact ⟨settled_exit h (hl.state hx) f.config (hx.display hl.started) _ _,
      ht.disarmed (exited_state _ _ _ _), rfl⟩
  | _ => cases hp

end Results

section Hooks

variable {o : Boot.Options} {es : List Event}

theorem signal_delivered (h : Possible o es) (n : Nat) (code : Int32) :
    ((after o es).signal n code).1 = true ↔
      (after o es).Awaited n ∧
        ∃ a, latest o es = some a ∧ a.channel = n ∧ firstSignal n a.since = none := by
  rw [signal_fst]
  by_cases hw : (after o es).Awaited n
  · obtain ⟨f, hf, rfl⟩ := awaited_iff.mp hw
    obtain ⟨a, ha, hi⟩ := in_flight h hf
    have hd : ((after o es).channel f.channel).armed = true ↔
        firstSignal a.channel a.since = none := by
      rw [hi.channel, hi.link]
      simp [Exit.Channel.armed]
    rw [hd]
    constructor
    · intro hn
      exact ⟨hw, a, ha, hi.channel.symm, hi.channel ▸ hn⟩
    · rintro ⟨-, b, hb, -, hn⟩
      obtain rfl := Option.some.inj (ha.symm.trans hb)
      exact hi.channel ▸ hn
  · have hn := unwaited h hw
    simp [hw, Exit.Channel.armed, hn]

theorem signal_closed {pre post : List Event} {e : Event} {f : Flight}
    (h : Possible o (post ++ e :: pre)) (hf : (after o pre).flight = some f)
    (hn : (after o (e :: pre)).flight = none) (code : Int32) :
    ((after o (post ++ e :: pre)).signal f.channel code).1 = false := by
  have hpre : Possible o (e :: pre) := h.suffix
  obtain ⟨a, -, hi⟩ := in_flight hpre.2 hf
  have hopen : f.channel < (after o pre).channels.length := by
    apply channel_lt
    rw [hi.channel, hi.link]
    intro hd
    have hw := congrArg Exit.Channel.waiting hd
    cases hw
  have hlt := Nat.lt_of_lt_of_le hopen (next_step hpre.1).channels_length
  have hw : ¬ (after o (e :: pre)).Awaited f.channel := by simp [Awaited, hn]
  have hno := (never_awaited_again h hlt hw).2
  cases hd : ((after o (post ++ e :: pre)).signal f.channel code).1 with
  | false => rfl
  | true => exact absurd ((signal_delivered h _ code).mp hd).1 hno

end Hooks

theorem bind_eq_ok {ε α β : Type} {x : Except ε α} {g : α → Except ε β} {b : β}
    (h : (x >>= g) = .ok b) : ∃ a, x = .ok a ∧ g a = .ok b := by
  cases x with
  | error e => cases h
  | ok a => exact ⟨a, rfl, h⟩

theorem program_of_resolve {p : Boot.Parameters} {w : Binary64} {o : Boot.Options}
    {c : Boot.Config} (h : p.resolve w o = .ok c) :
    ∃ name, p.program = some name ∧ c.program = Text.trim name := by
  cases hf : Boot.filled? p.program with
  | none =>
    simp only [Boot.Parameters.resolve, hf] at h
    cases h
  | some program =>
    simp only [Boot.Parameters.resolve, hf] at h
    obtain ⟨_, hp, h⟩ := bind_eq_ok h
    obtain ⟨_, -, h⟩ := bind_eq_ok h
    obtain ⟨_, -, h⟩ := bind_eq_ok h
    obtain ⟨_, -, h⟩ := bind_eq_ok h
    obtain ⟨_, -, h⟩ := bind_eq_ok h
    obtain rfl := Except.ok.inj hp
    obtain rfl := Except.ok.inj h
    obtain ⟨hn, -⟩ := Option.filter_eq_some_iff.mp hf
    obtain ⟨name, hname, rfl⟩ := Option.map_eq_some_iff.mp hn
    exact ⟨name, hname, rfl⟩

/-- How boots end, at one point of a history. -/
structure ExitLaw (o : Boot.Options) (es : List Event) : Prop where
  completes : ∀ e f, (after o es).Enabled e → (after o es).flight = some f →
    ∃ a name, latest o es = some a ∧ a.channel = f.channel ∧
      a.request.parameters.program = some name ∧
      ∀ result, ((after o es).next e).progress = .done result ↔
        e.concludes = true ∧
          verdict (Text.trim name) a.channel (e :: a.since) = some result
  settles : ∀ e f result, (after o es).Enabled e → (after o es).flight = some f →
    ((after o es).next e).progress = .done result →
    Settled (after o (e :: es)).context (shown o (e :: es)) f.config result ∧
      (after o (e :: es)).context.latch.armed = false ∧ (after o (e :: es)).flight = none
  delivered : ∀ n code, ((after o es).signal n code).1 = true ↔
    (after o es).Awaited n ∧
      ∃ a, latest o es = some a ∧ a.channel = n ∧ firstSignal n a.since = none
  closed : ∀ post e pre f code, es = post ++ e :: pre →
    (after o pre).flight = some f → (after o (e :: pre)).flight = none →
    ((after o es).signal f.channel code).1 = false
  isolated : Possible o (heard o es) ∧ Agrees (after o es) (after o (heard o es)) ∧
    shown o (heard o es) = shown o es ∧ results o (heard o es) = results o es

end Chip8Frame.Host.Session
