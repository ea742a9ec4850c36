import Chip8Frame.Proofs.Lifecycle

/-! The order of every boot. Prior surfaces and the banner are gone and the exit hook is armed
before the guest is launched; its display is mounted and its errors are recorded before its entry
point is called. The two calls are the turns that stop at `launch` and at `start`. -/

namespace Chip8Frame.Host.Session

/-- The launches of a history, newest first. -/
def launches (o : Boot.Options) : List Event → List Launch
  | [] => []
  | e :: es =>
      match ((after o es).next e).progress with
      | .launch l => l :: launches o es
      | _ => launches o es

def Attempt.launch (o : Boot.Options) (a : Attempt) : Launch :=
  ⟨a.channel, o.moduleUrl, a.config.arguments⟩

/-- What holds when the event `e` has the guest of a boot launched. -/
structure AtLaunch (o : Boot.Options) (e : Event) (es : List Event) (a : Attempt) : Prop where
  state : (after o (e :: es)).context.state = .booting
  live : (after o (e :: es)).context.surfaces.live = none
  bannerShown : (after o (e :: es)).context.surfaces.bannerShown = false
  display : (shown o (e :: es)).display = none
  diagnostic : (shown o (e :: es)).diagnostic = none
  banner : (shown o (e :: es)).banner = none
  resolved : ∃ w c, e = .command w c ∧ (after o es).requestOf c = some a.request ∧
    a.request.parameters.resolve w o = .ok a.config
  armed : (after o (e :: es)).armed a.channel = true
  fresh : ∀ l ∈ launches o es, l.channel < a.channel

/-- What holds when the event `e` has the entry point of a guest called: it answers the one launch
of the boot, and only bystanders acted since the command. -/
structure AtStart (o : Boot.Options) (e : Event) (es : List Event) (a : Attempt) : Prop where
  state : (after o (e :: es)).context.state = .running
  live : (after o (e :: es)).context.surfaces.live = some .display
  bannerShown : (after o (e :: es)).context.surfaces.bannerShown = false
  display : (shown o (e :: es)).display = some a.config.displaySize
  diagnostic : (shown o (e :: es)).diagnostic = none
  banner : (shown o (e :: es)).banner = none
  armed : (after o (e :: es)).context.latch.armed = true
  unerrored : (after o (e :: es)).context.latch.errored = false
  answered : e = .launched (.ok ())
  mounted : ((after o es).next e).effects =
    [.surface (.mountDisplay a.config.displaySize.1 a.config.displaySize.2)]
  quiet : ∀ x ∈ a.since, x.bystander = true
  launched : ∃ w c pre, es = a.since ++ .command w c :: pre ∧
    launches o es = a.launch o :: launches o pre ∧
    latest o (.command w c :: pre) = some { a with since := [] } ∧
    AtLaunch o (.command w c) pre { a with since := [] }

section Steps

variable {s : Session} {e : Event} {t : Turn}

theorem Step.launching (hs : Step s e t) {l : Launch} (hp : t.progress = .launch l) :
    s.flight = none ∧ ∃ f, t.session.flight = some f := by
  cases hs with
  | accepted hn => exact ⟨hn, _, rfl⟩
  | _ => cases hp

theorem Step.starting (hs : Step s e t) (hp : t.progress = .start) :
    e = .launched (.ok ()) ∧ ∃ f, s.flight = some f ∧ f.stage = .launching ∧
      t.session.context = (s.context.launched f.config).1 ∧
      t.effects = (s.context.launched f.config).2 ∧
      t.session.flight = some { f with stage := .starting } := by
  cases hs with
  | launched hf hst => exact ⟨rfl, _, hf, hst, rfl, rfl, rfl⟩
  | _ => cases hp

theorem bystander_pending (h : e.bystander = true) : (s.next e).progress = .pending := by
  cases e with
  | signal | cloneHook | dropHook | recordError => rfl
  | _ => cases h

end Steps

theorem launches_quiet (o : Boot.Options) {xs : List Event}
    (h : ∀ x ∈ xs, x.bystander = true) (ys : List Event) :
    launches o (xs ++ ys) = launches o ys := by
  induction xs with
  | nil => rfl
  | cons x xs ih =>
    have hx := bystander_pending (s := after o (xs ++ ys)) (h x (by simp))
    rw [List.cons_append, launches, hx]
    exact ih fun y hy => h y (by simp [hy])

theorem launches_lt {o : Boot.Options} {es : List Event} (h : Possible o es) :
    ∀ l ∈ launches o es, l.channel < (after o es).channels.length := by
  induction es with
  | nil => simp [launches]
  | cons e es ih =>
    have hs := next_step h.1
    have hle := hs.channels_length
    intro l hl
    rw [after_cons]
    rw [launches] at hl
    split at hl
    · next k hk =>
      rcases List.mem_cons.mp hl with rfl | hl
      · obtain ⟨hn, f, hf⟩ := hs.launching hk
        obtain ⟨w, c, r, config, -, -, -, -, hc, -, hp⟩ := hs.takeoff hn hf
        obtain rfl := Progress.launch.inj (hk.symm.trans hp)
        simp [hc]
      · have hlt := ih h.2 l hl
        omega
    · have hlt := ih h.2 l hl
      omega

theorem at_launch {o : Boot.Options} {e : Event} {es : List Event} (h : Possible o (e :: es))
    {l : Launch} (hp : ((after o es).next e).progress = .launch l) :
    ∃ a, latest o (e :: es) = some a ∧ l = a.launch o ∧ AtLaunch o e es a := by
  have hs := next_step h.1
  obtain ⟨hn, f, hf⟩ := hs.launching hp
  obtain ⟨w, c, r, config, rfl, hr, hc, ha, ht, rfl, hl⟩ := hs.takeoff hn hf
  obtain rfl := Progress.launch.inj (hp.symm.trans hl)
  obtain ⟨hsound, hflying⟩ := sound_flying h
  have hx := hflying _ hf
  have hlive := hsound.booting hx.state
  have hlatest : latest o (.command w c :: es) =
      some ⟨r, config, (after o es).channels.length, []⟩ := by
    rw [latest, attempt?_of_resolve hr hc, if_pos ha, Option.some_or]
  rw [options_after o h.2] at hc ⊢
  exact ⟨_, hlatest, rfl, {
    state := hx.state
    live := hlive
    bannerShown := hx.bare
    display := hsound.mirrors.display_eq_none (by simp [hlive])
    diagnostic := hsound.mirrors.diagnostic_eq_none (by simp [hlive])
    banner := hsound.mirrors.banner_eq_none hx.bare
    resolved := ⟨w, c, rfl, hr, hc⟩
    armed := by
      have hch := channel_opened ht (n := (after o es).channels.length)
      rw [if_pos rfl] at hch
      show Exit.Channel.armed (channel _ _) = true
      rw [after_cons, hch]
      rfl
    fresh := launches_lt h.2 }⟩

theorem launch_of_attempt {s : Session} {w : Binary64} {c : Command} {a : Attempt}
    (hn : s.flight = none) (ha : s.attempt? w c = some a) :
    ∃ l, (s.command w c).progress = .launch l := by
  have hs := command_step hn w c
  cases hf : (s.command w c).session.flight with
  | none =>
    have hx := ha.symm.trans (hs.attempt?_eq_none hf)
    cases hx
  | some f =>
    obtain ⟨_, _, _, _, -, -, -, -, -, -, hp⟩ := hs.takeoff hn hf
    exact ⟨_, hp⟩

theorem at_start {o : Boot.Options} {e : Event} {es : List Event} (h : Possible o (e :: es))
    (hp : ((after o es).next e).progress = .start) :
    ∃ a, latest o es = some a ∧ AtStart o e es a := by
  have hs := next_step h.1
  obtain ⟨he, f, hf, hst, hcx, heff, hfl⟩ := hs.starting hp
  obtain ⟨a, ha, hi⟩ := in_flight h.2 hf
  obtain ⟨hsound, hflying⟩ := sound_flying h.2
  obtain ⟨hsound', hflying'⟩ := sound_flying h
  have hx := hflying f hf
  have hx' := hflying' _ hfl
  have hlive : (after o es).context.surfaces.live = none := by
    apply hsound.booting
    rw [hx.state, hst]
    rfl
  have hlive' := hsound'.running hx'.state
  obtain ⟨w, c, pre, hes, hl, hat⟩ := latest_split ha
  have hpre : Possible o (.command w c :: pre) := (hes ▸ h.2).suffix
  obtain ⟨l, hlp⟩ := launch_of_attempt (stage_eq_none.mp hpre.1) hat
  obtain ⟨a', ha', rfl, hal⟩ := at_launch hpre hlp
  obtain rfl := Option.some.inj (hl.symm.trans ha')
  have hquiet := hi.quiet hst
  refine ⟨a, ha, {
    state := hx'.state
    live := hlive'
    bannerShown := hx'.bare
    display := ?_
    diagnostic := hsound'.mirrors.diagnostic_eq_none (by simp [hlive'])
    banner := hsound'.mirrors.banner_eq_none hx'.bare
    armed := hsound'.armed.mpr hx'.state
    unerrored := ?_
    answered := he
    mounted := ?_
    quiet := hquiet
    launched := ⟨w, c, pre, hes, ?_, hl, hal⟩ }⟩
  · rw [← hi.config]
    exact hx'.display (by simp)
  · rw [after_cons, hcx]
    rfl
  · rw [heff, ← hi.config]
    exact Surface.Manager.createDisplay_effects_of_none hlive _
  · rw [hes, launches_quiet o hquiet, launches]
    have hlp' : ((after o pre).next (.command w c)).progress = _ := hlp
    rw [hlp']
    rfl

/-- Every launch and every call of an entry point comes at its place in the order of a boot. -/
theorem launch_order {o : Boot.Options} {e : Event} {es : List Event}
    (h : Possible o (e :: es)) :
    (∀ l, ((after o es).next e).progress = .launch l →
      ∃ a, latest o (e :: es) = some a ∧ l = a.launch o ∧ AtLaunch o e es a) ∧
    (((after o es).next e).progress = .start →
      ∃ a, latest o es = some a ∧ AtStart o e es a) :=
  ⟨fun _ hp => at_launch h hp, fun hp => at_start h hp⟩

theorem launch_order_of_first_boot :
    Possible .default [.launched (.ok ()), Sample.request "PONG"] ∧
    (∃ a, AtLaunch .default (Sample.request "PONG") [] a) ∧
    ∃ a, AtStart .default (.launched (.ok ())) [Sample.request "PONG"] a := by
  have hp : Possible .default [.launched (.ok ()), Sample.request "PONG"] := by decide +kernel
  have hr : ((after .default []).attempt? Sample.width
      (.message (Sample.parameters "PONG"))).isSome := by decide +kernel
  obtain ⟨_, hr⟩ := Option.isSome_iff_exists.mp hr
  obtain ⟨_, hl⟩ := launch_of_attempt rfl hr
  have hs : ((after .default [Sample.request "PONG"]).next (.launched (.ok ()))).progress =
      .start := by
    obtain ⟨f, hf, hst⟩ := stage_eq_some.mp hp.1
    simp [next, Session.launched, hf, hst]
  obtain ⟨a, -, -, ha⟩ := (launch_order hp.2).1 _ hl
  obtain ⟨b, -, hb⟩ := (launch_order hp).2 hs
  exact ⟨hp, ⟨a, ha⟩, ⟨b, hb⟩⟩

end Chip8Frame.Host.Session
