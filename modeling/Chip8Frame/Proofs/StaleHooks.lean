import Chip8Frame.Proofs.Attempt

/-! Hooks that outlive their run are inert. Whatever is done with the hooks of a run that is over,
was dropped or belongs to a discarded context can be left out of a history, and the rest goes
exactly as before. The two histories are compared by a simulation that forgets all channels but
the one on which a boot waits. -/

namespace Chip8Frame.Host.Session

/-- Something is done with a hook of another run than the one in flight. -/
def Stale (s : Session) : Event → Prop
  | .signal n _ | .cloneHook n | .dropHook n => ¬ s.Awaited n
  | _ => False

instance (s : Session) : (e : Event) → Decidable (s.Stale e)
  | .signal n _ | .cloneHook n | .dropHook n => inferInstanceAs (Decidable (¬ s.Awaited n))
  | .command _ _ | .launched _ | .started _ | .poll | .abandon | .recordError _ _ | .hardReset =>
    inferInstanceAs (Decidable False)

def heard (o : Boot.Options) : List Event → List Event
  | [] => []
  | e :: es => if (after o es).Stale e then heard o es else e :: heard o es

def results (o : Boot.Options) : List Event → List (Except BootError Outcome)
  | [] => []
  | e :: es =>
      match ((after o es).next e).progress with
      | .done result => result :: results o es
      | _ => results o es

/-- The sessions differ at most in channels that nobody waits on. -/
structure Agrees (s u : Session) : Prop where
  context : u.context = s.context
  flight : u.flight = s.flight
  retired : u.retired = s.retired
  opened : u.channels.length = s.channels.length
  link : ∀ f, s.flight = some f → u.channel f.channel = s.channel f.channel

variable {s u : Session} {e : Event} {t : Turn}

theorem Agrees.refl (s : Session) : Agrees s s := ⟨rfl, rfl, rfl, rfl, fun _ _ => rfl⟩

theorem Agrees.landed (h : Agrees s u) (f : Flight) (c : Context) :
    Agrees (s.landed f c) (u.landed f c) where
  context := rfl
  flight := rfl
  retired := h.retired
  opened := by simpa [Session.landed] using h.opened
  link := by simp [Session.landed]

theorem Agrees.changed (h : Agrees s u) (c : Context) (latches : List Latch) :
    Agrees { s with context := c, retired := latches }
      { u with context := c, retired := latches } :=
  ⟨rfl, h.flight, rfl, h.opened, h.link⟩

theorem Agrees.moved (h : Agrees s u) {f : Flight} (hf : s.flight = some f) (c : Context)
    (g : Stage) :
    Agrees { s with context := c, flight := some { f with stage := g } }
      { u with context := c, flight := some { f with stage := g } } where
  context := rfl
  flight := rfl
  retired := h.retired
  opened := h.opened
  link := by
    intro k hk
    obtain rfl := Option.some.inj hk
    exact h.link f hf

theorem Agrees.takenOff (h : Agrees s u) (c : Context) (f : Flight)
    (hf : f.channel = s.channels.length) :
    Agrees { s with context := c, channels := s.channels ++ [Exit.Channel.opened], flight := some f }
      { u with context := c, channels := u.channels ++ [Exit.Channel.opened], flight := some f } where
  context := rfl
  flight := rfl
  retired := h.retired
  opened := by simp [h.opened]
  link := by
    intro g hg
    obtain rfl := Option.some.inj hg
    rw [channel_opened rfl, if_pos (hf.trans h.opened.symm), channel_opened rfl, if_pos hf]

section Hooks

variable {s' u' : Session} {n : Nat} {g : Exit.Channel → Exit.Channel}

theorem Agrees.rehooked (h : Agrees s u) (hs : Rehooked n g s s') (hu : Rehooked n g u u') :
    Agrees s' u' where
  context := by rw [hu.context, hs.context, h.context]
  flight := by rw [hu.flight, hs.flight, h.flight]
  retired := by rw [hu.retired, hs.retired, h.retired]
  opened := by rw [hu.opened, hs.opened, h.opened]
  link := by
    intro f hf
    rw [hs.flight] at hf
    rw [hu.channel, hs.channel, h.link f hf]

theorem Agrees.rehooked_left (h : Agrees s u) (hs : Rehooked n g s s') (hn : ¬ s.Awaited n) :
    Agrees s' u where
  context := h.context.trans hs.context.symm
  flight := h.flight.trans hs.flight.symm
  retired := h.retired.trans hs.retired.symm
  opened := h.opened.trans hs.opened.symm
  link := by
    intro f hf
    rw [hs.flight] at hf
    have hne : n ≠ f.channel := fun hx => hn (awaited_iff.mpr ⟨f, hf, hx.symm⟩)
    rw [hs.channel, if_neg hne, h.link f hf]

theorem Agrees.hooks (h : Agrees s u) (hn : 0 < (s.channel n).hooks) (hw : ¬ ¬ s.Awaited n) :
    0 < (u.channel n).hooks := by
  obtain ⟨f, hf, rfl⟩ := awaited_iff.mp (Decidable.not_not.mp hw)
  rwa [h.link f hf]

end Hooks

/-- What an event does that is not stale, it does on the other side too. -/
theorem Step.simulate (hs : Step s e t) (h : Agrees s u) (hst : ¬ s.Stale e) :
    ∃ v, Step u e v ∧ Agrees t.session v.session ∧ v.effects = t.effects ∧
      v.progress = t.progress := by
  obtain ⟨c, fl, chs, rt⟩ := u
  obtain rfl : c = s.context := h.context
  obtain rfl : fl = s.flight := h.flight
  obtain rfl : rt = s.retired := h.retired
  cases hs with
  | bannerShown hf hp => exact ⟨_, .bannerShown hf hp, h.changed _ _, rfl, rfl⟩
  | nothingToRestart hf hr => exact ⟨_, .nothingToRestart hf hr, h, rfl, rfl⟩
  | refused hf hr he => exact ⟨_, .refused hf hr he, h, rfl, rfl⟩
  | busy hf hr hc ha => exact ⟨_, .busy hf hr hc ha, h.changed _ _, rfl, rfl⟩
  | accepted hf hr hc ha =>
    have hlen : chs.length = s.channels.length := h.opened
    refine ⟨_, .accepted hf hr hc ha, ?_, rfl, ?_⟩
    · simp only [hlen]
      exact h.takenOff _ _ rfl
    · simp only [hlen]
  | launchFailed hf hg => exact ⟨_, .launchFailed hf hg, h.landed _ _, rfl, rfl⟩
  | launched hf hg => exact ⟨_, .launched hf hg, h.moved hf _ _, rfl, rfl⟩
  | startFailed hf hg => exact ⟨_, .startFailed hf hg, h.landed _ _, rfl, rfl⟩
  | waiting hl hp =>
    exact ⟨_, .waiting hl (h.link _ hl.1 ▸ hp), h.moved hl.1 _ _, rfl, rfl⟩
  | hookLost hl hp =>
    exact ⟨_, .hookLost hl (h.link _ hl.1 ▸ hp), h.landed _ _, rfl, rfl⟩
  | exited hl hp =>
    exact ⟨_, .exited hl (h.link _ hl.1 ▸ hp), h.landed _ _, rfl, rfl⟩
  | abandoned hf hg => exact ⟨_, .abandoned hf hg, h.landed _ _, rfl, rfl⟩
  | signalled hn =>
    have hu := h.hooks hn hst
    exact ⟨_, .signalled hu, h.rehooked (rehooked_signal ..) (rehooked_signal ..), rfl, rfl⟩
  | cloned hn =>
    have hu := h.hooks hn hst
    exact ⟨_, .cloned hu, h.rehooked (rehooked_cloneHook hn) (rehooked_cloneHook hu), rfl, rfl⟩
  | dropped hn =>
    have hu := h.hooks hn hst
    exact ⟨_, .dropped hu, h.rehooked (rehooked_dropHook ..) (rehooked_dropHook ..), rfl, rfl⟩
  | recorded => exact ⟨_, .recorded, h.changed _ _, rfl, rfl⟩
  | recordedLate hx => exact ⟨_, .recordedLate hx, h.changed _ _, rfl, rfl⟩
  | reset hf => exact ⟨_, .reset hf, h.changed _ _, rfl, rfl⟩

theorem Step.unseen (hs : Step s e t) (h : Agrees s u) (hst : s.Stale e) :
    Agrees t.session u ∧ t.effects = [] ∧ t.progress = .pending ∧
      ∀ b, e.backend b = b := by
  cases hs with
  | signalled =>
    exact ⟨h.rehooked_left (rehooked_signal ..) hst, rfl, rfl, fun _ => rfl⟩
  | cloned hn =>
    exact ⟨h.rehooked_left (rehooked_cloneHook hn) hst, rfl, rfl, fun _ => rfl⟩
  | dropped =>
    exact ⟨h.rehooked_left (rehooked_dropHook ..) hst, rfl, rfl, fun _ => rfl⟩
  | waiting hl | hookLost hl | exited hl =>
    rcases hl.2 with ⟨rfl, -⟩ | ⟨rfl, -⟩ <;> cases hst
  | _ => cases hst

/-- Leaving out the stale hook actions changes neither the context and the boot in flight, nor
the page, nor how any command ended. -/
theorem heard_agrees {o : Boot.Options} {es : List Event} (h : Possible o es) :
    Possible o (heard o es) ∧ Agrees (after o es) (after o (heard o es)) ∧
      shown o (heard o es) = shown o es ∧ results o (heard o es) = results o es := by
  induction es with
  | nil => exact ⟨trivial, .refl _, rfl, rfl⟩
  | cons e es ih =>
    have hs := next_step h.1
    obtain ⟨hp, ha, hb, hr⟩ := ih h.2
    by_cases hst : (after o es).Stale e
    · obtain ⟨hagrees, heff, hprog, hback⟩ := hs.unseen ha hst
      have hh : heard o (e :: es) = heard o es := by simp [heard, hst]
      rw [hh]
      refine ⟨hp, hagrees, ?_, ?_⟩
      · rw [shown_cons, heff, hback, hb, Surface.Headless.replay_nil]
      · rw [results, hprog, hr]
    · obtain ⟨v, hv, hagrees, heff, hprog⟩ := hs.simulate ha hst
      have hh : heard o (e :: es) = e :: heard o es := by simp [heard, hst]
      rw [hh, after_cons, after_cons, shown_cons, shown_cons, hv.next_eq, hb, heff]
      refine ⟨⟨hv.enabled, hp⟩, hagrees, rfl, ?_⟩
      rw [results, results, hv.next_eq, hprog, hr]

end Chip8Frame.Host.Session
