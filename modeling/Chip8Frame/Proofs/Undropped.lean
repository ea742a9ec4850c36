import Chip8Frame.Proofs.RestartTarget
import Chip8Frame.Proofs.StaleHooks

/-! Sessions whose boots are never dropped. Such a session accepts the next boot whenever none is in
flight, so no command is refused as busy. Stretches of a history are composed here, and it is said
once what the events of bystanders leave alone and where the others leave the boot in flight. -/

namespace Chip8Frame.Host.Session

/-- The session goes through enabled events, newest first, and becomes another. -/
inductive Reaches (s : Session) : List Event → Session → Prop where
  | refl : Reaches s [] s
  | tail {es u e} (h : Reaches s es u) (he : u.Enabled e) : Reaches s (e :: es) (u.next e).session

namespace Reaches

variable {s u v : Session} {es fs : List Event}

theorem single {e : Event} (he : s.Enabled e) : Reaches s [e] (s.next e).session := .tail .refl he

theorem trans (h : Reaches s es u) (k : Reaches u fs v) : Reaches s (fs ++ es) v := by
  induction k with
  | refl => exact h
  | tail _ he ih => exact .tail ih he

theorem possible {o : Boot.Options} (hp : Possible o es) (h : Reaches (after o es) fs u) :
    Possible o (fs ++ es) ∧ after o (fs ++ es) = u := by
  induction h with
  | refl => exact ⟨hp, rfl⟩
  | tail _ he ih =>
    obtain ⟨hp', rfl⟩ := ih
    exact ⟨⟨he, hp'⟩, rfl⟩

end Reaches

def Event.command? : Event → Option (Binary64 × Command)
  | .command w c => some (w, c)
  | _ => none

/-- Neither drops a boot nor discards its context. -/
def Event.keeps : Event → Bool
  | .abandon | .hardReset => false
  | _ => true

theorem Event.keeps_of_bystander {e : Event} (h : e.bystander = true) : e.keeps = true := by
  cases e <;> first | rfl | cases h

theorem Event.command?_of_bystander {e : Event} (h : e.bystander = true) : e.command? = none := by
  cases e <;> first | rfl | cases h

/-- The events by which a frame leads its own boots. -/
def Event.leads : Event → Bool
  | .command _ _ | .launched _ | .started _ | .poll => true
  | _ => false

theorem Event.keeps_of_leads {e : Event} (h : e.leads = true) : e.keeps = true := by
  cases e <;> first | rfl | cases h

section Steps

variable {s : Session} {e : Event} {t : Turn}

theorem Step.bystander (hs : Step s e t) (hb : e.bystander = true) :
    t.session.flight = s.flight ∧
      t.session.context = { s.context with latch := t.session.context.latch } := by
  cases hs with
  | signalled | cloned | dropped | recorded | recordedLate => exact ⟨rfl, rfl⟩
  | waiting hl | hookLost hl | exited hl =>
    rcases hl.2 with ⟨rfl, -⟩ | ⟨rfl, -⟩ <;> cases hb
  | _ => cases hb

theorem Step.unstuck (hs : Step s e t) (hn : ¬ s.Stuck) (he : e.keeps = true) :
    ¬ t.session.Stuck := by
  rintro ⟨hf, hst⟩
  cases hs with
  | accepted | launched | waiting => cases hf
  | launchFailed | startFailed | hookLost => cases hst
  | exited =>
    simp only [landed, Context.exited] at hst
    split at hst <;> cases hst
  | abandoned | reset => cases he
  | _ => exact hn ⟨hf, hst⟩

theorem Step.stuck_of_busy (hs : Step s e t) {name : String}
    (hp : t.progress = .done (.error (.busy name))) : s.Stuck := by
  cases hs with
  | busy hf _ _ ha => exact ⟨hf, ha⟩
  | _ => cases hp

theorem Step.landed_of_done (hs : Step s e t) {result : Except BootError Outcome}
    (hp : t.progress = .done result) : t.session.flight = none := by
  cases hs with
  | bannerShown hf | nothingToRestart hf | refused hf | busy hf => exact hf
  | launchFailed | startFailed | hookLost | exited => rfl
  | _ => cases hp

theorem Step.running_of_pending (hs : Step s e t) (hl : e.leads = true)
    (hp : t.progress = .pending) :
    t.effects = [] ∧ ∃ f, s.flight = some f ∧ f.stage ≠ .launching ∧
      t.session.flight = some { f with stage := .running } := by
  cases hs with
  | @waiting e f hk _ =>
    refine ⟨rfl, f, hk.1, ?_, rfl⟩
    rcases hk.2 with ⟨-, hst⟩ | ⟨-, hst⟩ <;> simp [hst]
  | abandoned | signalled | cloned | dropped | recorded | recordedLate | reset => cases hl
  | _ => cases hp

theorem Step.launching_of_launch (hs : Step s e t) {l : Launch} (hp : t.progress = .launch l) :
    ∃ f, t.session.flight = some f ∧ f.stage = .launching ∧ l.arguments = f.config.arguments := by
  cases hs with
  | accepted =>
    obtain rfl := Progress.launch.inj hp
    exact ⟨_, rfl, rfl, rfl⟩
  | _ => cases hp

theorem Step.no_launch (hs : Step s e t) (he : e.command? = none) (l : Launch) :
    t.progress ≠ .launch l := by
  intro hp
  cases hs with
  | accepted => cases he
  | _ => cases hp

theorem Step.launch_or_done (hs : Step s e t) (hl : e.leads = true)
    (hn : e ≠ .launched (.ok ())) :
    (∃ l, t.progress = .launch l) ∨ (∃ result, t.progress = .done result) ∨
      t.progress = .pending := by
  cases hs with
  | launched => exact absurd rfl hn
  | accepted => exact .inl ⟨_, rfl⟩
  | waiting | abandoned | signalled | cloned | dropped | recorded | recordedLate | reset =>
    exact .inr (.inr rfl)
  | _ => exact .inr (.inl ⟨_, rfl⟩)

theorem hooks_unopened (s : Session) : (s.channel s.channels.length).hooks = 0 := by
  simp only [channel, List.getElem?_eq_none (Nat.le_refl _)]
  rfl

theorem Step.hooks_opened (hs : Step s e t) {l : Launch} (hp : t.progress = .launch l) :
    l.channel = s.channels.length ∧
      t.session.channels = s.channels ++ [Exit.Channel.opened] := by
  cases hs with
  | accepted =>
    obtain rfl := Progress.launch.inj hp
    exact ⟨rfl, rfl⟩
  | _ => cases hp

theorem Step.hooks_kept (hs : Step s e t) (hp : ∀ l, t.progress ≠ .launch l)
    (hc : ∀ n, e ≠ .cloneHook n) (hd : ∀ n, e ≠ .dropHook n) (n : Nat) :
    (t.session.channel n).hooks = (s.channel n).hooks := by
  have hland : ∀ f h, ((s.landed f h).channel n).hooks = (s.channel n).hooks := by
    intro f h
    rw [channel_landed]
    split <;> rfl
  cases hs with
  | accepted => exact absurd rfl (hp _)
  | launchFailed | startFailed | hookLost | exited | abandoned => exact hland _ _
  | cloned => exact absurd rfl (hc _)
  | dropped => exact absurd rfl (hd _)
  | signalled =>
    rw [channel_signal]
    unfold Exit.Channel.signal
    split
    · split <;> rfl
    · rfl
  | _ => rfl

private theorem clear_captures (m : Surface.Manager) :
    Effect.surface .captureKeys ∉ m.clear.effects := by
  unfold Surface.Manager.clear
  split <;> simp [Surface.Manager.unchanged]

private theorem removeBanner_captures (m : Surface.Manager) :
    Effect.surface .captureKeys ∉ m.removeBanner.effects := by
  unfold Surface.Manager.removeBanner
  split <;> simp [Surface.Manager.unchanged]

/-- The keys are captured once for a context, when it is made. -/
theorem Step.captures (hs : Step s e t) (he : e.keeps = true) :
    Effect.surface .captureKeys ∉ t.effects := by
  cases hs with
  | bannerShown =>
    simp only [Context.showBanner, Surface.Manager.showBanner]
    split <;> simp [Surface.Manager.unchanged]
  | accepted => simp [Context.beginBoot, clear_captures, removeBanner_captures]
  | launchFailed | hookLost => simp [Context.launchFailed, Context.hookLost]
  | launched => simp [Context.launched, Surface.Manager.createDisplay, clear_captures]
  | startFailed => simp [Context.startFailed, clear_captures]
  | exited =>
    simp only [Context.exited]
    split <;> simp [Surface.Manager.renderFault, clear_captures]
  | recorded | recordedLate => exact Latch.record_silent _ _ _
  | reset => cases he
  | _ => simp [refuse]

end Steps

theorem Reaches.bystanders {s u : Session} {es : List Event} (h : Reaches s es u)
    (hb : ∀ e ∈ es, e.bystander = true) :
    u.flight = s.flight ∧ u.context = { s.context with latch := u.context.latch } := by
  induction h with
  | refl => exact ⟨rfl, rfl⟩
  | tail _ he ih =>
    obtain ⟨hf, hc⟩ := ih fun x hx => hb x (List.mem_cons_of_mem _ hx)
    obtain ⟨hf', hc'⟩ := (next_step he).bystander (hb _ List.mem_cons_self)
    exact ⟨hf'.trans hf, by rw [hc', hc]⟩

section Histories

variable {o : Boot.Options} {es : List Event}

theorem not_stuck (h : Possible o es) (hk : ∀ e ∈ es, e.keeps = true) : ¬ (after o es).Stuck := by
  induction es with
  | nil =>
    rintro ⟨-, hst⟩
    cases hst
  | cons e es ih =>
    have hn := ih h.2 fun x hx => hk x (List.mem_cons_of_mem _ hx)
    exact (next_step h.1).unstuck hn (hk e List.mem_cons_self)

theorem accepts_of_grounded (h : Possible o es) (hk : ∀ e ∈ es, e.keeps = true)
    (hf : (after o es).flight = none) : (after o es).context.state.acceptsBoot = true := by
  cases ha : (after o es).context.state.acceptsBoot with
  | true => rfl
  | false => exact absurd ⟨hf, ha⟩ (not_stuck h hk)

theorem not_busy (h : Possible o es) (hk : ∀ e ∈ es, e.keeps = true) {e : Event}
    (he : (after o es).Enabled e) (name : String) :
    ((after o es).next e).progress ≠ .done (.error (.busy name)) :=
  fun hp => not_stuck h hk ((next_step he).stuck_of_busy hp)

theorem busy_notMem_results (h : Possible o es) (hk : ∀ e ∈ es, e.keeps = true) (name : String) :
    .error (.busy name) ∉ results o es := by
  induction es with
  | nil => simp [results]
  | cons e es ih =>
    have hks : ∀ x ∈ es, x.keeps = true := fun x hx => hk x (List.mem_cons_of_mem _ hx)
    have hb := not_busy h.2 hks h.1 name
    rw [results]
    split
    · next result hp =>
      rw [hp] at hb
      rintro (_ | ⟨_, hm⟩)
      · exact hb rfl
      · exact ih h.2 hks hm
    · exact ih h.2 hks

end Histories

end Chip8Frame.Host.Session
