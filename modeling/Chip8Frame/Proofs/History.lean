import Chip8Frame.Host.Session
import Chip8Frame.Proofs.Mounted

/-! Histories of a hosting context: commands, the answers of its guests, boots that are dropped,
and whatever is done with exit hooks and error latches, in any order. A boot in flight holds its
context exclusively, so a command or a hard reset comes only when no boot is in flight.
A history lists its events newest first, and everything else is computed from it. -/

namespace Chip8Frame.Host.Session

/-- Hooks are named by the number of their channel, latches by that of their context. -/
inductive Event where
  | command (width : Binary64) (command : Command)
  | launched (result : Except GuestError Unit)
  | started (result : Except GuestError Unit)
  | poll
  | abandon
  | signal (channel : Nat) (code : Int32)
  | cloneHook (channel : Nat)
  | dropHook (channel : Nat)
  | recordError (latch : Nat) (message : String)
  | hardReset

def stage (s : Session) : Option Stage := s.flight.map Flight.stage

/-- The channel of a number; one that was never opened has neither hooks nor a waiting half. -/
def channel (s : Session) (n : Nat) : Exit.Channel := (s.channels[n]?).getD default

/-- The surroundings answer what they were asked, a boot is dropped only where it is suspended,
and only a hook or a latch that exists can be used. -/
def Enabled (s : Session) : Event → Prop
  | .command _ _ | .hardReset => s.stage = none
  | .launched _ => s.stage = some .launching
  | .started _ => s.stage = some .starting
  | .poll => s.stage = some .running
  | .abandon => s.stage = some .launching ∨ s.stage = some .running
  | .signal n _ | .cloneHook n | .dropHook n => 0 < (s.channel n).hooks
  | .recordError n _ => n ≤ s.retired.length

instance (s : Session) (e : Event) : Decidable (s.Enabled e) := by
  cases e <;> simp only [Enabled] <;> infer_instance

/-- What an event does. One that is no step of a boot leaves the boot pending. -/
def next (s : Session) : Event → Turn
  | .command w c => s.command w c
  | .launched result => s.launched result
  | .started result => s.started result
  | .poll => s.poll
  | .abandon => ⟨s.abandon, [], .pending⟩
  | .signal n code => ⟨(s.signal n code).2, [], .pending⟩
  | .cloneHook n => ⟨s.cloneHook n, [], .pending⟩
  | .dropHook n => ⟨s.dropHook n, [], .pending⟩
  | .recordError n message =>
      let (_, s', effects) := s.recordError n message
      ⟨s', effects, .pending⟩
  | .hardReset => ⟨s.hardReset.1, s.resetNotice ++ s.hardReset.2, .pending⟩

def after (o : Boot.Options) : List Event → Session
  | [] => (new o).1
  | e :: es => ((after o es).next e).session

theorem after_cons (o : Boot.Options) (e : Event) (es : List Event) :
    after o (e :: es) = ((after o es).next e).session := rfl

/-- The backend that an event works on: a hard reset comes with a new one. -/
def Event.backend (b : Surface.Headless) : Event → Surface.Headless
  | .hardReset => .new
  | _ => b

def shown (o : Boot.Options) : List Event → Surface.Headless
  | [] => Surface.Headless.new.replay (new o).2
  | e :: es => (e.backend (shown o es)).replay ((after o es).next e).effects

theorem shown_cons (o : Boot.Options) (e : Event) (es : List Event) :
    shown o (e :: es) = (e.backend (shown o es)).replay ((after o es).next e).effects := rfl

/-- Each event of a history was enabled when it came. -/
def Possible (o : Boot.Options) : List Event → Prop
  | [] => True
  | e :: es => (after o es).Enabled e ∧ Possible o es

instance (o : Boot.Options) : (es : List Event) → Decidable (Possible o es)
  | [] => inferInstanceAs (Decidable True)
  | e :: es =>
    have : Decidable (Possible o es) := instDecidablePossible o es
    inferInstanceAs (Decidable ((after o es).Enabled e ∧ Possible o es))

def requestOf (s : Session) : Command → Option Boot.Request
  | .frameLoaded p => if p.requestsBoot then some ⟨.attributes, p⟩ else none
  | .message p => some ⟨.message, p⟩
  | .restart => s.context.lastRequest

def remember (s : Session) (r : Boot.Request) : Session :=
  { s with context := { s.context with lastRequest := some r } }

def landed (s : Session) (f : Flight) (h : Context) : Session :=
  { s with
    context := h
    flight := none
    channels := s.channels.modify f.channel Exit.Channel.dropWait }

/-- The event looks for the exit of the boot in flight: its guest is polled, or its entry point
has just returned. -/
def Looks (s : Session) (e : Event) (f : Flight) : Prop :=
  s.flight = some f ∧
    (e = .poll ∧ f.stage = .running ∨ e = .started (.ok ()) ∧ f.stage = .starting)

/-- Every way in which an enabled event can go, with all that it leaves behind. -/
inductive Step (s : Session) : Event → Turn → Prop where
  | bannerShown {w p} (hf : s.flight = none) (hp : p.requestsBoot = false) :
      Step s (.command w (.frameLoaded p))
        ⟨{ s with context := s.context.showBanner.1 }, s.context.showBanner.2,
          .done (.ok .banner)⟩
  | nothingToRestart {w} (hf : s.flight = none) (hr : s.context.lastRequest = none) :
      Step s (.command w .restart) (s.refuse .nothingToRestart [])
  | refused {w c r e} (hf : s.flight = none) (hr : s.requestOf c = some r)
      (he : r.parameters.resolve w s.context.options = .error e) :
      Step s (.command w c) (s.refuse (.config e) [.note (.requestRefused e)])
  | busy {w c r config} (hf : s.flight = none) (hr : s.requestOf c = some r)
      (hc : r.parameters.resolve w s.context.options = .ok config)
      (hs : s.context.state.acceptsBoot = false) :
      Step s (.command w c) ((s.remember r).refuse (.busy s.context.state.name)
        [.note (.bootRefused s.context.state.name)])
  | accepted {w c r config} (hf : s.flight = none) (hr : s.requestOf c = some r)
      (hc : r.parameters.resolve w s.context.options = .ok config)
      (hs : s.context.state.acceptsBoot = true) :
      Step s (.command w c)
        ⟨{ s with
            context := ((s.remember r).context.beginBoot config).1
            channels := s.channels ++ [Exit.Channel.opened]
            flight := some ⟨s.context.runs + 1, config, s.channels.length, .launching⟩ },
          ((s.remember r).context.beginBoot config).2,
          .launch ⟨s.channels.length, s.context.options.moduleUrl, config.arguments⟩⟩
  | launchFailed {f e} (hf : s.flight = some f) (hs : f.stage = .launching) :
      Step s (.launched (.error e))
        ⟨s.landed f (s.context.launchFailed f.run e).1, (s.context.launchFailed f.run e).2,
          .done (.error (.guest e))⟩
  | launched {f} (hf : s.flight = some f) (hs : f.stage = .launching) :
      Step s (.launched (.ok ()))
        ⟨{ s with
            context := (s.context.launched f.config).1
            flight := some { f with stage := .starting } },
          (s.context.launched f.config).2, .start⟩
  | startFailed {f e} (hf : s.flight = some f) (hs : f.stage = .starting) :
      Step s (.started (.error e))
        ⟨s.landed f (s.context.startFailed f.run e).1, (s.context.startFailed f.run e).2,
          .done (.error (.guest e))⟩
  | waiting {e f} (hl : s.Looks e f) (hp : (s.channel f.channel).poll.1 = .pending) :
      Step s e ⟨{ s with flight := some { f with stage := .running } }, [], .pending⟩
  | hookLost {e f} (hl : s.Looks e f) (hp : (s.channel f.channel).poll.1 = .dropped) :
      Step s e
        ⟨s.landed f (s.context.hookLost f.run).1, (s.context.hookLost f.run).2,
          .done (.error .exitHookDropped)⟩
  | exited {e f code} (hl : s.Looks e f) (hp : (s.channel f.channel).poll.1 = .code code) :
      Step s e
        ⟨s.landed f (s.context.exited f.run f.config code).1,
          (s.context.exited f.run f.config code).2.1,
          .done (.ok (s.context.exited f.run f.config code).2.2)⟩
  | abandoned {f} (hf : s.flight = some f) (hs : f.stage ≠ .starting) :
      Step s .abandon ⟨s.landed f s.context, [], .pending⟩
  | signalled {n code} (hn : 0 < (s.channel n).hooks) :
      Step s (.signal n code)
        ⟨s.setChannel n ((s.channel n).signal code).2, [], .pending⟩
  | cloned {n} (hn : 0 < (s.channel n).hooks) :
      Step s (.cloneHook n) ⟨s.cloneHook n, [], .pending⟩
  | dropped {n} (hn : 0 < (s.channel n).hooks) :
      Step s (.dropHook n) ⟨s.dropHook n, [], .pending⟩
  | recorded {m} :
      Step s (.recordError s.retired.length m)
        ⟨{ s with context := { s.context with latch := (s.context.latch.record m).1 } },
          (s.context.latch.record m).2, .pending⟩
  | recordedLate {n m l} (hl : s.retired[n]? = some l) :
      Step s (.recordError n m)
        ⟨{ s with retired := s.retired.set n (l.record m).1 }, (l.record m).2, .pending⟩
  | reset (hf : s.flight = none) :
      Step s .hardReset
        ⟨{ s with
            context := (Context.new s.context.options).1
            retired := s.retired ++ [s.context.latch] },
          s.resetNotice ++ (Context.new s.context.options).2, .pending⟩

theorem stage_eq_none {s : Session} : s.stage = none ↔ s.flight = none := by
  simp [stage]

theorem stage_eq_some {s : Session} {g : Stage} :
    s.stage = some g ↔ ∃ f, s.flight = some f ∧ f.stage = g := by
  simp [stage]

theorem Looks.not_command {s : Session} {w : Binary64} {c : Command} {f : Flight}
    (h : s.Looks (.command w c) f) : False := by
  rcases h.2 with ⟨hx, -⟩ | ⟨hx, -⟩ <;> cases hx

theorem land_landed {s : Session} {f : Flight} (hf : s.flight = some f) (h : Context) :
    land { s with context := h } = s.landed f h := by
  simp [land, landed, hf]

theorem command_eq_request {s : Session} {w : Binary64} {c : Command} {r : Boot.Request}
    (hr : s.requestOf c = some r) : s.command w c = s.request r w := by
  cases c with
  | frameLoaded p =>
    simp only [requestOf] at hr
    split at hr
    · next hp =>
      obtain rfl := Option.some.inj hr
      simp only [command, hp, if_true]
    · cases hr
  | message p =>
    obtain rfl := Option.some.inj hr
    rfl
  | restart =>
    have hl : s.context.lastRequest = some r := hr
    simp only [command, hl]

private theorem request_step {s : Session} {w : Binary64} {c : Command} {r : Boot.Request}
    (hf : s.flight = none) (hr : s.requestOf c = some r) :
    Step s (.command w c) (s.request r w) := by
  unfold request
  cases hc : r.parameters.resolve w s.context.options with
  | error e => exact .refused hf hr hc
  | ok config =>
    cases hs : s.context.state.acceptsBoot with
    | false =>
      simp only [boot, hs, Bool.false_eq_true, if_false]
      exact .busy hf hr hc hs
    | true =>
      simp only [boot, hs, if_true]
      exact .accepted hf hr hc hs

theorem command_step {s : Session} (hf : s.flight = none) (w : Binary64) (c : Command) :
    Step s (.command w c) (s.command w c) := by
  cases c with
  | frameLoaded p =>
    cases hp : p.requestsBoot with
    | false =>
      simp only [command, hp, Bool.false_eq_true, if_false]
      exact .bannerShown hf hp
    | true =>
      simp only [command, hp, if_true]
      exact request_step hf (by simp only [requestOf, hp, if_true])
  | message p => exact request_step hf rfl
  | restart =>
    cases hr : s.context.lastRequest with
    | none =>
      simp only [command, hr]
      exact .nothingToRestart hf hr
    | some r =>
      simp only [command, hr]
      exact request_step hf hr

private theorem launched_step {s : Session} {f : Flight} (hf : s.flight = some f)
    (hs : f.stage = .launching) (result : Except GuestError Unit) :
    Step s (.launched result) (s.launched result) := by
  cases result with
  | error e =>
    simp only [launched, hf, hs, if_true]
    exact .launchFailed hf hs
  | ok u =>
    simp only [launched, hf, hs, if_true]
    exact .launched hf hs

theorem poll_running (s : Session) (f : Flight) :
    poll { s with flight := some { f with stage := .running } } =
      match (s.channel f.channel).poll.1 with
      | .pending => ⟨{ s with flight := some { f with stage := .running } }, [], .pending⟩
      | .dropped =>
          ⟨s.landed f (s.context.hookLost f.run).1, (s.context.hookLost f.run).2,
            .done (.error .exitHookDropped)⟩
      | .code code =>
          ⟨s.landed f (s.context.exited f.run f.config code).1,
            (s.context.exited f.run f.config code).2.1,
            .done (.ok (s.context.exited f.run f.config code).2.2)⟩ := by
  simp only [poll, if_true]
  rfl

theorem Looks.next_eq {s : Session} {e : Event} {f : Flight} (h : s.Looks e f) :
    s.next e = poll { s with flight := some { f with stage := .running } } := by
  rcases h with ⟨hf, ⟨rfl, hst⟩ | ⟨rfl, hst⟩⟩
  · have hsame : { s with flight := some { f with stage := .running } } = s := by
      rw [← hst, ← hf]
    rw [hsame]
    rfl
  · simp only [next, started, hf, hst, if_true]

private theorem look_step {s : Session} {e : Event} {f : Flight} (hl : s.Looks e f) :
    Step s e (s.next e) := by
  rw [hl.next_eq, poll_running]
  cases hp : (s.channel f.channel).poll.1 with
  | pending => exact .waiting hl hp
  | dropped => exact .hookLost hl hp
  | code code => exact .exited hl hp

private theorem started_step {s : Session} {f : Flight} (hf : s.flight = some f)
    (hs : f.stage = .starting) (result : Except GuestError Unit) :
    Step s (.started result) (s.started result) := by
  cases result with
  | error e =>
    simp only [started, hf, hs, if_true]
    exact .startFailed hf hs
  | ok u => exact look_step ⟨hf, .inr ⟨rfl, hs⟩⟩

private theorem recordError_step {s : Session} {n : Nat} (h : n ≤ s.retired.length)
    (message : String) : Step s (.recordError n message) (s.next (.recordError n message)) := by
  rcases Nat.lt_or_eq_of_le h with hlt | rfl
  · have hl := List.getElem?_eq_getElem hlt
    simp only [next, recordError, Nat.ne_of_lt hlt, if_false, hl]
    exact .recordedLate hl
  · simp only [next, recordError, if_true]
    exact .recorded

theorem next_step {s : Session} {e : Event} (h : s.Enabled e) : Step s e (s.next e) := by
  cases e with
  | command w c => exact command_step (stage_eq_none.mp h) w c
  | launched result =>
    obtain ⟨f, hf, hs⟩ := stage_eq_some.mp h
    exact launched_step hf hs result
  | started result =>
    obtain ⟨f, hf, hs⟩ := stage_eq_some.mp h
    exact started_step hf hs result
  | poll =>
    obtain ⟨f, hf, hs⟩ := stage_eq_some.mp h
    exact look_step ⟨hf, .inl ⟨rfl, hs⟩⟩
  | abandon =>
    have hf : ∃ f, s.flight = some f ∧ f.stage ≠ .starting := by
      rcases h with h | h
      · obtain ⟨f, hf, hs⟩ := stage_eq_some.mp h
        exact ⟨f, hf, by simp [hs]⟩
      · obtain ⟨f, hf, hs⟩ := stage_eq_some.mp h
        exact ⟨f, hf, by simp [hs]⟩
    obtain ⟨f, hf, hs⟩ := hf
    have hstep := Step.abandoned hf hs
    rwa [← land_landed hf] at hstep
  | signal n code => exact .signalled h
  | cloneHook n => exact .cloned h
  | dropHook n => exact .dropped h
  | recordError n message => exact recordError_step h message
  | hardReset =>
    have hf : s.flight = none := stage_eq_none.mp h
    have hstep := Step.reset hf
    simpa [next, hardReset, land, hf] using hstep

theorem Step.enabled {s : Session} {e : Event} {t : Turn} (hs : Step s e t) : s.Enabled e := by
  cases hs with
  | bannerShown hf | nothingToRestart hf | refused hf | busy hf | accepted hf | reset hf =>
    exact stage_eq_none.mpr hf
  | launchFailed hf hst | launched hf hst | startFailed hf hst =>
    exact stage_eq_some.mpr ⟨_, hf, hst⟩
  | waiting hl | hookLost hl | exited hl =>
    rcases hl with ⟨hf, ⟨rfl, hst⟩ | ⟨rfl, hst⟩⟩
    · exact stage_eq_some.mpr ⟨_, hf, hst⟩
    · exact stage_eq_some.mpr ⟨_, hf, hst⟩
  | @abandoned f hf hst =>
    cases hg : f.stage with
    | launching => exact .inl (stage_eq_some.mpr ⟨f, hf, hg⟩)
    | starting => exact absurd hg hst
    | running => exact .inr (stage_eq_some.mpr ⟨f, hf, hg⟩)
  | signalled hn | cloned hn | dropped hn => exact hn
  | recorded => exact Nat.le_refl _
  | recordedLate hl =>
    obtain ⟨hlt, -⟩ := List.getElem?_eq_some_iff.mp hl
    exact Nat.le_of_lt hlt

theorem Step.next_eq {s : Session} {e : Event} {t : Turn} (hs : Step s e t) : s.next e = t := by
  cases hs with
  | bannerShown hf hp => simp [next, command, hp]
  | nothingToRestart hf hr => simp [next, command, hr]
  | refused hf hr he => simp [next, command_eq_request hr, request, he]
  | busy hf hr hc hs =>
    simp [next, command_eq_request hr, request, hc, boot, hs, remember]
  | accepted hf hr hc hs =>
    simp [next, command_eq_request hr, request, hc, boot, hs, remember, Context.beginBoot]
  | launchFailed hf hst => simp [next, Session.launched, hf, hst, ← land_landed hf]
  | launched hf hst => simp [next, Session.launched, hf, hst]
  | startFailed hf hst => simp [next, Session.started, hf, hst, ← land_landed hf]
  | waiting hl hp | hookLost hl hp | exited hl hp => rw [hl.next_eq, poll_running, hp]
  | abandoned hf hst => simp [next, abandon, ← land_landed hf]
  | signalled hn | cloned hn | dropped hn => rfl
  | recorded => simp [next, recordError]
  | recordedLate hl =>
    obtain ⟨hlt, -⟩ := List.getElem?_eq_some_iff.mp hl
    simp [next, recordError, Nat.ne_of_lt hlt, hl]
  | reset hf => simp [next, hardReset, land, hf]

theorem Possible.suffix {o : Boot.Options} {xs ys : List Event} (h : Possible o (xs ++ ys)) :
    Possible o ys := by
  induction xs with
  | nil => exact h
  | cons x xs ih => exact ih h.2

def Sample.parameters (program : String) : Boot.Parameters :=
  ⟨some program, some "10", some "1", some "0"⟩

def Sample.width : Binary64 := .ofInt 640

def Sample.request (program : String) : Event :=
  .command Sample.width (.message (Sample.parameters program))

def Sample.booted : List Event :=
  [.started (.ok ()), .launched (.ok ()), Sample.request "PONG"]

def Sample.crashed : List Event := .poll :: .signal 0 Exit.invalidOpcode :: Sample.booted

end Chip8Frame.Host.Session
