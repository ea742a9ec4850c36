import Chip8Frame.Proofs.Attempt

/-! The request that a restart would boot again. It is recorded when a request resolves, before
the state is looked at: while the context waits for an exit of a dropped boot, every request that
resolves replaces it, although it is turned away. -/

namespace Chip8Frame.Host.Session

def busy? (s : Session) (w : Binary64) (c : Command) : Option Boot.Request :=
  match (s.command w c).progress with
  | .done (.error (.busy _)) => s.requestOf c
  | _ => none

/-- The newest request that was refused as busy since the latest accepted one. -/
def turnedAway (o : Boot.Options) : List Event → Option Boot.Request
  | [] => none
  | e :: es =>
      match e with
      | .hardReset => none
      | .command w c =>
          match (after o es).attempt? w c with
          | some _ => none
          | none => ((after o es).busy? w c).or (turnedAway o es)
      | _ => turnedAway o es

/-- The boot was dropped where it waited, and its context still waits. -/
def Stuck (s : Session) : Prop := s.flight = none ∧ s.context.state.acceptsBoot = false

section Commands

variable {s : Session} {w : Binary64} {c : Command}

theorem target_of_command (h : s.flight = none) (w : Binary64) (c : Command) :
    (s.command w c).session.context.lastRequest =
      ((s.attempt? w c).map Attempt.request).or ((s.busy? w c).or s.context.lastRequest) := by
  have hs := command_step h w c
  unfold busy?
  generalize s.command w c = t at hs ⊢
  cases hs with
  | bannerShown _ hp =>
    rw [attempt?_of_none (by simp [requestOf, hp])]
    rfl
  | nothingToRestart _ hr =>
    rw [attempt?_of_none (c := .restart) hr]
    rfl
  | refused _ hr he =>
    rw [attempt?_of_error hr he]
    rfl
  | busy _ hr hc ha =>
    rw [attempt?_of_resolve hr hc, ha]
    simp [refuse, remember, hr]
  | accepted _ hr hc ha =>
    rw [attempt?_of_resolve hr hc, ha]
    rfl
  | waiting hl | hookLost hl | exited hl => exact hl.not_command.elim

theorem refused_unchanged (h : s.flight = none) {e : BootError}
    (hp : (s.command w c).progress = .done (.error e)) (he : ∀ name, e ≠ .busy name) :
    (s.command w c).session = s := by
  have hs := command_step h w c
  generalize s.command w c = t at hs hp ⊢
  cases hs with
  | bannerShown => cases hp
  | nothingToRestart | refused => rfl
  | busy =>
    cases hp
    exact absurd rfl (he _)
  | accepted => cases hp
  | waiting hl | hookLost hl | exited hl => exact hl.not_command.elim

theorem busy_remembered (h : s.flight = none) {name : String}
    (hp : (s.command w c).progress = .done (.error (.busy name))) :
    s.Stuck ∧ (s.command w c).session.context.lastRequest = s.requestOf c := by
  have hs := command_step h w c
  generalize s.command w c = t at hs hp ⊢
  cases hs with
  | bannerShown | accepted => cases hp
  | nothingToRestart | refused => cases hp
  | busy _ hr _ ha => exact ⟨⟨h, ha⟩, hr.symm⟩
  | waiting hl | hookLost hl | exited hl => exact hl.not_command.elim

theorem busy?_eq_some {r : Boot.Request} (h : s.flight = none) (hb : s.busy? w c = some r) :
    s.Stuck := by
  unfold busy? at hb
  split at hb
  · next hp => exact (busy_remembered h hp).1
  · cases hb

end Commands

theorem Step.lastRequest {s : Session} {e : Event} {t : Turn} (hs : Step s e t)
    (hc : ∀ w c, e ≠ .command w c) (hr : e ≠ .hardReset) :
    t.session.context.lastRequest = s.context.lastRequest := by
  cases hs with
  | bannerShown | nothingToRestart | refused | busy | accepted => exact absurd rfl (hc _ _)
  | reset => exact absurd rfl hr
  | exited =>
    simp only [landed, Context.exited]
    split <;> rfl
  | _ => rfl

theorem Step.stuck {s : Session} {e : Event} {t : Turn} (hs : Step s e t) (h : s.Stuck)
    (hr : e ≠ .hardReset) : t.session.Stuck := by
  cases hs with
  | accepted _ _ _ ha =>
    have hx := ha.symm.trans h.2
    cases hx
  | launchFailed hf | launched hf | startFailed hf | abandoned hf =>
    have hx := h.1.symm.trans hf
    cases hx
  | waiting hl | hookLost hl | exited hl =>
    have hx := h.1.symm.trans hl.1
    cases hx
  | reset => exact absurd rfl hr
  | _ => exact h

theorem turnedAway_stuck {o : Boot.Options} {es : List Event} (h : Possible o es)
    {r : Boot.Request} (hr : turnedAway o es = some r) : (after o es).Stuck := by
  induction es with
  | nil => cases hr
  | cons e es ih =>
    have hs := next_step h.1
    rw [after_cons]
    cases e with
    | hardReset => cases hr
    | command w c =>
      simp only [turnedAway] at hr
      split at hr
      · cases hr
      · have hn : (after o es).Stuck := by
          rcases Option.or_eq_some_iff.mp hr with hb | ⟨-, hb⟩
          · exact busy?_eq_some (stage_eq_none.mp h.1) hb
          · exact ih h.2 hb
        exact hs.stuck hn (by simp)
    | _ => exact hs.stuck (ih h.2 hr) (by simp)

theorem latest_cons {o : Boot.Options} {es : List Event} (hl : (latest o es).isSome) {e : Event}
    (hr : e ≠ .hardReset) : (latest o (e :: es)).isSome := by
  cases e with
  | hardReset => exact absurd rfl hr
  | command w c => simp [latest, hl]
  | _ => simpa [latest] using hl

theorem latest_of_waiting {o : Boot.Options} {es : List Event} (h : Possible o es)
    (hw : (after o es).context.state.acceptsBoot = false) : (latest o es).isSome := by
  induction es with
  | nil => cases hw
  | cons e es ih =>
    have hs := next_step h.1
    have hf : ∀ f, (after o es).flight = some f → (latest o es).isSome := by
      intro f hf
      obtain ⟨a, ha, -⟩ := in_flight h.2 hf
      simp [ha]
    rw [after_cons] at hw
    generalize (after o es).next e = t at hs hw
    cases hs with
    | accepted _ hr hc ha => simp [latest, attempt?_of_resolve hr hc, ha]
    | launchFailed | startFailed | hookLost | reset => cases hw
    | exited =>
      simp only [landed, Context.exited] at hw
      split at hw <;> cases hw
    | launched hx => exact latest_cons (hf _ hx) (by simp)
    | waiting hl =>
      rcases hl.2 with ⟨rfl, -⟩ | ⟨rfl, -⟩
      · exact latest_cons (hf _ hl.1) (by simp)
      · exact latest_cons (hf _ hl.1) (by simp)
    | _ => exact latest_cons (ih h.2 hw) (by simp)

private theorem target_of_history {o : Boot.Options} {es : List Event} (h : Possible o es) :
    (after o es).context.lastRequest =
      (turnedAway o es).or ((latest o es).map Attempt.request) := by
  induction es with
  | nil => rfl
  | cons e es ih =>
    have hs := next_step h.1
    rw [after_cons]
    cases e with
    | hardReset => rfl
    | command w c =>
      have ht := target_of_command (stage_eq_none.mp h.1) w c
      rw [ih h.2] at ht
      cases ha : (after o es).attempt? w c with
      | some a => simpa [next, latest, turnedAway, ha] using ht
      | none =>
        have hm : (latest o es).map (Attempt.request ∘ Attempt.add (.command w c)) =
            (latest o es).map Attempt.request := rfl
        simpa [next, latest, turnedAway, ha, hm, Option.or_assoc] using ht
    | _ =>
      rw [hs.lastRequest (by simp) (by simp), ih h.2]
      simp only [turnedAway, latest, Option.map_map]
      rfl

/-- The restart target is the request of the latest accepted boot unless another one was refused
as busy since, which takes a boot that was dropped. -/
theorem restart_target {o : Boot.Options} {es : List Event} (h : Possible o es) :
    (after o es).context.lastRequest =
      (turnedAway o es).or ((latest o es).map Attempt.request) ∧
    ((after o es).context.lastRequest = (latest o es).map Attempt.request ↔
      ∀ r, turnedAway o es = some r → (latest o es).map Attempt.request = some r) ∧
    (∀ r, turnedAway o es = some r → (after o es).Stuck ∧ (latest o es).isSome) ∧
    (∀ w c e, (after o es).flight = none →
      ((after o es).command w c).progress = .done (.error e) →
      (((after o es).command w c).session.context.lastRequest =
          (after o es).context.lastRequest ↔
        ∀ name, e = .busy name →
          (after o es).requestOf c = (after o es).context.lastRequest)) := by
  have ht := target_of_history h
  refine ⟨ht, ?_, ?_, ?_⟩
  · rw [ht]
    cases turnedAway o es with
    | none => simp
    | some r => simp [eq_comm]
  · intro r hr
    have hs := turnedAway_stuck h hr
    exact ⟨hs, latest_of_waiting h hs.2⟩
  · intro w c e hf hp
    by_cases he : ∃ name, e = .busy name
    · obtain ⟨name, rfl⟩ := he
      rw [(busy_remembered hf hp).2]
      simp
    · have hn : ∀ name, e ≠ .busy name := fun name hx => he ⟨name, hx⟩
      rw [refused_unchanged hf hp hn]
      simp [hn]

def Sample.turnedAway : List Event :=
  Sample.request "BRIX" :: .abandon :: Sample.booted

theorem restart_target_turned_away :
    Possible .default Sample.turnedAway ∧
    (after .default Sample.turnedAway).context.lastRequest =
      some ⟨.message, Sample.parameters "BRIX"⟩ := by
  have hp : Possible .default Sample.turnedAway := by decide +kernel
  have hr : turnedAway .default Sample.turnedAway =
      some ⟨.message, Sample.parameters "BRIX"⟩ := by decide +kernel
  have ht := (restart_target hp).1
  rw [hr, Option.some_or] at ht
  exact ⟨hp, ht⟩

/-- The restart target can be a request that was never accepted. -/
theorem target_not_accepted :
    ¬ ∀ o es, Possible o es →
      (after o es).context.lastRequest = (latest o es).map Attempt.request := by
  intro h
  have hp : Possible .default Sample.turnedAway := by decide +kernel
  have hn : (after .default Sample.turnedAway).context.lastRequest ≠
      (latest .default Sample.turnedAway).map Attempt.request := by decide +kernel
  exact hn (h _ _ hp)

end Chip8Frame.Host.Session
