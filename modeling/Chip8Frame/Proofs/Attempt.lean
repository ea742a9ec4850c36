import Chip8Frame.Proofs.Channels

/-! The boot that a history is about: the latest accepted one, with all that happened since.
What its exit channel holds is read off these events, and while the boot is in flight the
session agrees with that reading. -/

namespace Chip8Frame.Host.Session

/-- One accepted boot, with the events since, newest first. -/
structure Attempt where
  request : Boot.Request
  config : Boot.Config
  channel : Nat
  since : List Event

def Attempt.add (e : Event) (a : Attempt) : Attempt := { a with since := e :: a.since }

/-- The boot that a command begins: its request resolves and is counted as a run. -/
def attempt? (s : Session) (w : Binary64) (c : Command) : Option Attempt :=
  if (s.command w c).session.context.runs = s.context.runs + 1 then
    match s.requestOf c with
    | some r =>
        match r.parameters.resolve w s.context.options with
        | .ok config => some ⟨r, config, s.channels.length, []⟩
        | .error _ => none
    | none => none
  else none

def latest (o : Boot.Options) : List Event → Option Attempt
  | [] => none
  | e :: es =>
      match e with
      | .hardReset => none
      | .command w c => ((after o es).attempt? w c).or ((latest o es).map (Attempt.add e))
      | _ => (latest o es).map (Attempt.add e)

def hooksLeft (n : Nat) : List Event → Nat
  | [] => 1
  | .cloneHook m :: es => if m = n then hooksLeft n es + 1 else hooksLeft n es
  | .dropHook m :: es => if m = n then hooksLeft n es - 1 else hooksLeft n es
  | _ :: es => hooksLeft n es

def firstSignal (n : Nat) : List Event → Option Int32
  | [] => none
  | .signal m code :: es =>
      (firstSignal n es).or (if m = n then some code else none)
  | _ :: es => firstSignal n es

/-- What a boot that waits on a channel learns there. -/
def exitOf (n : Nat) (es : List Event) : Exit.Wait :=
  match firstSignal n es with
  | some code => .code code
  | none => if hooksLeft n es = 0 then .dropped else .pending

/-- Done by those who hold hooks and latches, and no step of a boot. -/
def Event.bystander : Event → Bool
  | .signal _ _ | .cloneHook _ | .dropHook _ | .recordError _ _ => true
  | _ => false

def Event.launchFailure? : Event → Option GuestError
  | .launched (.error e) => some e
  | _ => none

def Event.startFailure? : Event → Option GuestError
  | .started (.error e) => some e
  | _ => none

theorem firstSignal_cons {n : Nat} {es : List Event} {code : Int32}
    (h : firstSignal n es = some code) (e : Event) : firstSignal n (e :: es) = some code := by
  cases e <;> simp [firstSignal, h]

theorem exitOf_eq_code {n : Nat} {es : List Event} {code : Int32} :
    exitOf n es = .code code ↔ firstSignal n es = some code := by
  unfold exitOf
  cases firstSignal n es with
  | some c => simp
  | none =>
    simp only [reduceCtorEq, iff_false]
    split <;> simp

theorem attempt?_of_resolve {s : Session} {w : Binary64} {c : Command} {r : Boot.Request}
    {config : Boot.Config} (hr : s.requestOf c = some r)
    (hc : r.parameters.resolve w s.context.options = .ok config) :
    s.attempt? w c =
      if s.context.state.acceptsBoot = true then some ⟨r, config, s.channels.length, []⟩
      else none := by
  simp only [attempt?, command_eq_request hr, request, hc, hr]
  cases hs : s.context.state.acceptsBoot <;> simp [boot, hs, refuse, Context.beginBoot]

theorem attempt?_of_error {s : Session} {w : Binary64} {c : Command} {r : Boot.Request}
    {e : Boot.ConfigError} (hr : s.requestOf c = some r)
    (he : r.parameters.resolve w s.context.options = .error e) : s.attempt? w c = none := by
  simp [attempt?, hr, he]

theorem attempt?_of_none {s : Session} {w : Binary64} {c : Command}
    (hr : s.requestOf c = none) : s.attempt? w c = none := by
  simp [attempt?, hr]

theorem attempt?_eq_some {s : Session} {w : Binary64} {c : Command} {a : Attempt}
    (h : s.attempt? w c = some a) :
    s.requestOf c = some a.request ∧
      a.request.parameters.resolve w s.context.options = .ok a.config ∧
      a.channel = s.channels.length ∧ a.since = [] := by
  unfold attempt? at h
  split at h
  · split at h
    · next r hr =>
      split at h
      · next config hc =>
        obtain rfl := Option.some.inj h
        exact ⟨hr, hc, rfl, rfl⟩
      · cases h
    · cases h
  · cases h

theorem latest_split {o : Boot.Options} {es : List Event} {a : Attempt}
    (h : latest o es = some a) :
    ∃ w c pre, es = a.since ++ .command w c :: pre ∧
      latest o (.command w c :: pre) = some { a with since := [] } ∧
      (after o pre).attempt? w c = some { a with since := [] } := by
  induction es generalizing a with
  | nil => cases h
  | cons e es ih =>
    have hadd : ∀ b, latest o es = some b → b.add e = a →
        ∃ w c pre, e :: es = a.since ++ .command w c :: pre ∧
          latest o (.command w c :: pre) = some { a with since := [] } ∧
          (after o pre).attempt? w c = some { a with since := [] } := by
      rintro b hb rfl
      obtain ⟨w, c, pre, hes, hl, ha⟩ := ih hb
      exact ⟨w, c, pre, by rw [hes]; rfl, hl, ha⟩
    cases e with
    | hardReset => cases h
    | command w c =>
      rcases Option.or_eq_some_iff.mp h with ha | ⟨-, hb⟩
      · obtain ⟨-, -, -, hnil⟩ := attempt?_eq_some ha
        have hsame : { a with since := [] } = a := by rw [← hnil]
        exact ⟨w, c, es, by rw [hnil]; rfl, by rw [hsame]; exact h, by rw [hsame]; exact ha⟩
      · obtain ⟨b, hb, hab⟩ := Option.map_eq_some_iff.mp hb
        exact hadd b hb hab
    | _ =>
      obtain ⟨b, hb, hab⟩ := Option.map_eq_some_iff.mp h
      exact hadd b hb hab

/-- What the session holds of the boot in flight, read off the events since its command. -/
structure InFlight (s : Session) (a : Attempt) (f : Flight) : Prop where
  config : f.config = a.config
  channel : f.channel = a.channel
  link : s.channel a.channel =
    ⟨hooksLeft a.channel a.since, firstSignal a.channel a.since, true⟩
  quiet : f.stage = .launching → ∀ e ∈ a.since, e.bystander = true
  launched : ∀ e ∈ a.since, e.launchFailure? = none
  started : ∀ e ∈ a.since, e.startFailure? = none

namespace InFlight

variable {s u : Session} {a : Attempt} {f g : Flight} {e : Event}

private theorem go_on (h : InFlight s a f) (hg : g.config = f.config ∧ g.channel = f.channel)
    (hq : g.stage = .launching → f.stage = .launching ∧ e.bystander = true)
    (hl : e.launchFailure? = none) (hs : e.startFailure? = none)
    (hc : u.channel a.channel =
      ⟨hooksLeft a.channel (e :: a.since), firstSignal a.channel (e :: a.since), true⟩) :
    InFlight u (a.add e) g where
  config := hg.1.trans h.config
  channel := hg.2.trans h.channel
  link := hc
  quiet := by
    intro hw x hx
    rcases List.mem_cons.mp hx with rfl | hx
    · exact (hq hw).2
    · exact h.quiet (hq hw).1 x hx
  launched := by
    intro x hx
    rcases List.mem_cons.mp hx with rfl | hx
    · exact hl
    · exact h.launched x hx
  started := by
    intro x hx
    rcases List.mem_cons.mp hx with rfl | hx
    · exact hs
    · exact h.started x hx

theorem takeoff (hc : u.channels = s.channels ++ [Exit.Channel.opened]) (r : Boot.Request)
    (config : Boot.Config) (run : Nat) :
    InFlight u ⟨r, config, s.channels.length, []⟩
      ⟨run, config, s.channels.length, .launching⟩ where
  config := rfl
  channel := rfl
  link := by
    rw [channel_opened hc, if_pos rfl]
    rfl
  quiet := by simp
  launched := by simp
  started := by simp

theorem poll (h : InFlight s a f) :
    (s.channel f.channel).poll.1 = exitOf a.channel a.since := by
  rw [h.channel, h.link]
  unfold Exit.Channel.poll exitOf
  cases firstSignal a.channel a.since with
  | some code => rfl
  | none =>
    simp only
    split <;> rfl

private theorem signalled (h : InFlight s a f) (n : Nat) (code : Int32) :
    InFlight (s.setChannel n ((s.channel n).signal code).2) (a.add (.signal n code)) f := by
  apply h.go_on ⟨rfl, rfl⟩ (fun hw => ⟨hw, rfl⟩) rfl rfl
  rw [channel_signal, h.link]
  by_cases hn : n = a.channel
  · cases hd : firstSignal a.channel a.since <;>
      simp [hn, hooksLeft, firstSignal, hd, Exit.Channel.signal, Exit.Channel.armed]
  · simp [hn, hooksLeft, firstSignal]

private theorem cloned (h : InFlight s a f) {n : Nat} (hn : 0 < (s.channel n).hooks) :
    InFlight (s.cloneHook n) (a.add (.cloneHook n)) f := by
  apply h.go_on ⟨rfl, rfl⟩ (fun hw => ⟨hw, rfl⟩) rfl rfl
  rw [channel_cloneHook hn, h.link]
  by_cases hm : n = a.channel
  · simp [hm, hooksLeft, firstSignal, Exit.Channel.cloneHook]
  · simp [hm, hooksLeft, firstSignal]

private theorem dropped (h : InFlight s a f) (n : Nat) :
    InFlight (s.dropHook n) (a.add (.dropHook n)) f := by
  apply h.go_on ⟨rfl, rfl⟩ (fun hw => ⟨hw, rfl⟩) rfl rfl
  rw [channel_dropHook, h.link]
  by_cases hm : n = a.channel
  · simp [hm, hooksLeft, firstSignal, Exit.Channel.dropHook]
  · simp [hm, hooksLeft, firstSignal]

theorem step {t : Turn} (h : InFlight s a f) (hf : s.flight = some f) (hs : Step s e t)
    (hg : t.session.flight = some g) : InFlight t.session (a.add e) g := by
  cases hs with
  | bannerShown hn | nothingToRestart hn | refused hn | busy hn | accepted hn | reset hn =>
    rw [hf] at hn
    cases hn
  | launchFailed | startFailed | hookLost | exited | abandoned => cases hg
  | launched hf' =>
    obtain rfl := Option.some.inj (hf.symm.trans hf')
    obtain rfl := Option.some.inj hg
    exact h.go_on ⟨rfl, rfl⟩ nofun rfl rfl h.link
  | waiting hl =>
    obtain rfl := Option.some.inj (hf.symm.trans hl.1)
    obtain rfl := Option.some.inj hg
    rcases hl.2 with ⟨rfl, -⟩ | ⟨rfl, -⟩
    · exact h.go_on ⟨rfl, rfl⟩ nofun rfl rfl h.link
    · exact h.go_on ⟨rfl, rfl⟩ nofun rfl rfl h.link
  | @signalled n code hn =>
    obtain rfl := Option.some.inj (hf.symm.trans hg)
    exact h.signalled n code
  | cloned hn =>
    obtain rfl := Option.some.inj (hf.symm.trans hg)
    exact h.cloned hn
  | @dropped n hn =>
    obtain rfl := Option.some.inj (hf.symm.trans hg)
    exact h.dropped n
  | recorded | recordedLate =>
    obtain rfl := Option.some.inj (hf.symm.trans hg)
    exact h.go_on ⟨rfl, rfl⟩ (fun hw => ⟨hw, rfl⟩) rfl rfl h.link

end InFlight

theorem latest_of_flight {o : Boot.Options} {es : List Event} {e : Event} {f : Flight}
    (hf : (after o es).flight = some f) (he : (after o es).Enabled e) :
    latest o (e :: es) = (latest o es).map (Attempt.add e) := by
  cases e with
  | command w c | hardReset =>
    have hn := stage_eq_none.mp he
    rw [hf] at hn
    cases hn
  | _ => rfl

theorem Step.takeoff {s : Session} {e : Event} {t : Turn} {f : Flight} (hs : Step s e t)
    (hn : s.flight = none) (hf : t.session.flight = some f) :
    ∃ w c r config, e = .command w c ∧ s.requestOf c = some r ∧
      r.parameters.resolve w s.context.options = .ok config ∧
      s.context.state.acceptsBoot = true ∧
      t.session.channels = s.channels ++ [Exit.Channel.opened] ∧
      f = ⟨s.context.runs + 1, config, s.channels.length, .launching⟩ ∧
      t.progress =
        .launch ⟨s.channels.length, s.context.options.moduleUrl, config.arguments⟩ := by
  cases hs with
  | @accepted w c r config _ hr hc ha =>
    exact ⟨w, c, r, config, rfl, hr, hc, ha, rfl, (Option.some.inj hf).symm, rfl⟩
  | launchFailed | startFailed | hookLost | exited | abandoned => cases hf
  | launched hx =>
    rw [hn] at hx
    cases hx
  | waiting hl =>
    have hx := hn.symm.trans hl.1
    cases hx
  | _ =>
    have hx := hn.symm.trans hf
    cases hx

/-- The boot in flight is the latest accepted one. -/
theorem in_flight {o : Boot.Options} {es : List Event} (h : Possible o es) {f : Flight}
    (hf : (after o es).flight = some f) :
    ∃ a, latest o es = some a ∧ InFlight (after o es) a f := by
  induction es generalizing f with
  | nil => cases hf
  | cons e es ih =>
    have hs := next_step h.1
    rw [after_cons] at hf ⊢
    cases hp : (after o es).flight with
    | some g =>
      obtain ⟨a, ha, hi⟩ := ih h.2 hp
      exact ⟨a.add e, by rw [latest_of_flight hp h.1, ha]; rfl, hi.step hp hs hf⟩
    | none =>
      obtain ⟨w, c, r, config, rfl, hr, hc, hb, ht, rfl, -⟩ := hs.takeoff hp hf
      refine ⟨⟨r, config, (after o es).channels.length, []⟩, ?_, .takeoff ht r config _⟩
      simp only [latest, attempt?_of_resolve hr hc, hb, if_true, Option.some_or]

theorem Step.attempt?_eq_none {s : Session} {w : Binary64} {c : Command} {t : Turn}
    (hs : Step s (.command w c) t) (hn : t.session.flight = none) : s.attempt? w c = none := by
  cases hs with
  | bannerShown _ hp => exact attempt?_of_none (by simp [requestOf, hp])
  | nothingToRestart _ hr => exact attempt?_of_none hr
  | refused _ hr he => exact attempt?_of_error hr he
  | busy _ hr hc ha => simp [attempt?_of_resolve hr hc, ha]
  | accepted => cases hn
  | waiting hl | hookLost hl | exited hl => exact hl.not_command.elim

theorem latest_of_grounded {o : Boot.Options} {es : List Event} {e : Event}
    (he : (after o es).Enabled e) (hr : e ≠ .hardReset)
    (hn : (after o (e :: es)).flight = none) :
    latest o (e :: es) = (latest o es).map (Attempt.add e) := by
  cases e with
  | command w c =>
    have ha := (next_step he).attempt?_eq_none hn
    simp only [latest, ha, Option.none_or]
  | hardReset => exact absurd rfl hr
  | _ => rfl

end Chip8Frame.Host.Session
