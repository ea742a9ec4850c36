import Chip8Frame.Proofs.ExitVerdict
import Chip8Frame.Proofs.LaunchOrder

/-! A hard reset starts over. Hooks and latches of the contexts before it may live on, but they
reach nothing of the new one: leave out what is done with them, count channels and latches from
the reset, and what remains is a history of a session that was newly made. -/

namespace Chip8Frame.Host

def Progress.launch? : Progress → Option Launch
  | .launch l => some l
  | _ => none

def Progress.result? : Progress → Option (Except BootError Outcome)
  | .done result => some result
  | _ => none

namespace Session

/-- How many channels and latches a hard reset leaves behind. -/
structure Past where
  channels : Nat
  latches : Nat

def past (s : Session) : Past := ⟨s.channels.length, s.retired.length + 1⟩

/-- An event as it is to those who know nothing of the past, to whom it may be no event. -/
def Event.since (p : Past) : Event → Option Event
  | .signal n code => if n < p.channels then none else some (.signal (n - p.channels) code)
  | .cloneHook n => if n < p.channels then none else some (.cloneHook (n - p.channels))
  | .dropHook n => if n < p.channels then none else some (.dropHook (n - p.channels))
  | .recordError n m => if n < p.latches then none else some (.recordError (n - p.latches) m)
  | e => some e

def Past.flight (p : Past) (f : Flight) : Flight := { f with channel := p.channels + f.channel }

def Past.launch (p : Past) (l : Launch) : Launch := { l with channel := p.channels + l.channel }

def Past.progress (p : Past) : Progress → Progress
  | .launch l => .launch (p.launch l)
  | r => r

theorem Past.launch?_progress (p : Past) (r : Progress) :
    (p.progress r).launch?.toList = r.launch?.toList.map p.launch := by
  cases r <;> rfl

theorem Past.result?_progress (p : Past) (r : Progress) :
    (p.progress r).result? = r.result? := by
  cases r <;> rfl

theorem Event.backend_since {p : Past} {e f : Event} (h : e.since p = some f)
    (b : Surface.Headless) : f.backend b = e.backend b := by
  cases e with
  | signal | cloneHook | dropHook | recordError =>
    obtain ⟨-, hf⟩ := Option.ite_none_left_eq_some.mp h
    obtain rfl := Option.some.inj hf
    rfl
  | _ =>
    obtain rfl := Option.some.inj h
    rfl

/-- The session `s` is `u`, with the handles of the past beside its own. -/
structure Renews (p : Past) (s u : Session) : Prop where
  context : s.context = u.context
  flight : s.flight = u.flight.map p.flight
  opened : s.channels.length = p.channels + u.channels.length
  channel : ∀ n, s.channel (p.channels + n) = u.channel n
  discarded : s.retired.length = p.latches + u.retired.length
  latch : ∀ n, s.retired[p.latches + n]? = u.retired[n]?

section Steps

variable {p : Past} {s u : Session} {e f : Event} {t : Turn}

theorem Renews.changed (h : Renews p s u) (c : Context) :
    Renews p { s with context := c } { u with context := c } :=
  ⟨rfl, h.flight, h.opened, h.channel, h.discarded, h.latch⟩

theorem Renews.landed (h : Renews p s u) (g : Flight) (k : Context) :
    Renews p (s.landed (p.flight g) k) (u.landed g k) where
  context := rfl
  flight := rfl
  opened := by simpa [Session.landed] using h.opened
  channel := by
    intro n
    rw [channel_landed, channel_landed, h.channel]
    simp only [Past.flight, Nat.add_left_cancel_iff]
  discarded := h.discarded
  latch := h.latch

theorem Renews.moved (h : Renews p s u) (c : Context) (k : Flight) (g : Stage) :
    Renews p { s with context := c, flight := some { p.flight k with stage := g } }
      { u with context := c, flight := some { k with stage := g } } :=
  ⟨rfl, rfl, h.opened, h.channel, h.discarded, h.latch⟩

theorem Renews.takenOff (h : Renews p s u) (c : Context) (run : Nat) (config : Boot.Config) :
    Renews p
      { s with
        context := c
        channels := s.channels ++ [Exit.Channel.opened]
        flight := some ⟨run, config, p.channels + u.channels.length, .launching⟩ }
      { u with
        context := c
        channels := u.channels ++ [Exit.Channel.opened]
        flight := some ⟨run, config, u.channels.length, .launching⟩ } where
  context := rfl
  flight := rfl
  opened := by
    simp only [List.length_append, h.opened]
    omega
  channel := by
    intro n
    refine (channel_opened (s := s) rfl).trans (.trans ?_ (channel_opened (s := u) rfl).symm)
    rw [h.opened, h.channel]
    simp only [Nat.add_left_cancel_iff]
  discarded := h.discarded
  latch := h.latch

section Handles

variable {s' u' : Session} {n : Nat} {g : Exit.Channel → Exit.Channel}

theorem Renews.rehooked (h : Renews p s u) (hs : Rehooked (p.channels + n) g s s')
    (hu : Rehooked n g u u') : Renews p s' u' where
  context := by rw [hs.context, hu.context, h.context]
  flight := by rw [hs.flight, hu.flight, h.flight]
  opened := by rw [hs.opened, hu.opened, h.opened]
  channel := by
    intro m
    rw [hs.channel, hu.channel, h.channel]
    simp only [Nat.add_left_cancel_iff]
  discarded := by rw [hs.retired, hu.retired, h.discarded]
  latch := by
    intro m
    rw [hs.retired, hu.retired, h.latch]

theorem Renews.rehooked_left (h : Renews p s u) (hs : Rehooked n g s s') (hn : n < p.channels) :
    Renews p s' u where
  context := hs.context.trans h.context
  flight := hs.flight.trans h.flight
  opened := hs.opened.trans h.opened
  channel := by
    intro m
    rw [hs.channel, if_neg (by omega), h.channel]
  discarded := hs.retired ▸ h.discarded
  latch := hs.retired ▸ h.latch

theorem Renews.relatched (h : Renews p s u) (k : Nat) (l : Latch) :
    Renews p { s with retired := s.retired.set (p.latches + k) l }
      { u with retired := u.retired.set k l } where
  context := h.context
  flight := h.flight
  opened := h.opened
  channel := h.channel
  discarded := by simpa using h.discarded
  latch := by
    intro j
    simp only [List.getElem?_set', Nat.add_left_cancel_iff, h.latch]

theorem Renews.relatched_left (h : Renews p s u) {k : Nat} (hk : k < p.latches) (l : Latch) :
    Renews p { s with retired := s.retired.set k l } u where
  context := h.context
  flight := h.flight
  opened := h.opened
  channel := h.channel
  discarded := by simpa using h.discarded
  latch := by
    intro j
    rw [List.getElem?_set_ne (by omega), h.latch]

theorem Renews.reset (h : Renews p s u) (c : Context) (l : Latch) :
    Renews p { s with context := c, retired := s.retired ++ [l] }
      { u with context := c, retired := u.retired ++ [l] } where
  context := rfl
  flight := h.flight
  opened := h.opened
  channel := h.channel
  discarded := by simp only [List.length_append, h.discarded, Nat.add_assoc]
  latch := by
    intro j
    simp only [List.getElem?_append, h.discarded, Nat.add_lt_add_iff_left, Nat.add_sub_add_left,
      h.latch]

end Handles

theorem Step.unseen_since (hs : Step s e t) (h : Renews p s u) (he : e.since p = none) :
    Renews p t.session u ∧ t.progress = .pending ∧
      ∀ b, (e.backend b).replay t.effects = b := by
  cases hs with
  | @signalled n code =>
    have hlt : n < p.channels := by simpa [Event.since] using he
    exact ⟨h.rehooked_left (rehooked_signal ..) hlt, rfl, fun _ => rfl⟩
  | @cloned n hn =>
    have hlt : n < p.channels := by simpa [Event.since] using he
    exact ⟨h.rehooked_left (rehooked_cloneHook hn) hlt, rfl, fun _ => rfl⟩
  | @dropped n =>
    have hlt : n < p.channels := by simpa [Event.since] using he
    exact ⟨h.rehooked_left (rehooked_dropHook ..) hlt, rfl, fun _ => rfl⟩
  | recorded =>
    have hlt : s.retired.length < p.latches := by simpa [Event.since] using he
    have hd := h.discarded
    omega
  | @recordedLate n m l =>
    have hlt : n < p.latches := by simpa [Event.since] using he
    exact ⟨h.relatched_left hlt _, rfl, fun b => replay_record b l m⟩
  | waiting hl | hookLost hl | exited hl =>
    rcases hl.2 with ⟨rfl, -⟩ | ⟨rfl, -⟩ <;> cases he
  | _ => cases he

private theorem since_of_looks {g : Flight} (hl : s.Looks e g) (he : e.since p = some f) :
    e = f := by
  rcases hl.2 with ⟨rfl, -⟩ | ⟨rfl, -⟩
  · exact Option.some.inj he
  · exact Option.some.inj he

private theorem since_of_ite {k n : Nat} {g : Nat → Event}
    (he : (if n < k then none else some (g (n - k))) = some f) : ∃ m, n = k + m ∧ f = g m := by
  split at he
  · cases he
  · exact ⟨n - k, by omega, (Option.some.inj he).symm⟩

theorem Renews.grounded (h : Renews p s u) (hf : s.flight = none) : u.flight = none :=
  Option.map_eq_none_iff.mp (h.flight ▸ hf)

theorem Renews.flying (h : Renews p s u) {g : Flight} (hf : s.flight = some g) :
    ∃ k, u.flight = some k ∧ p.flight k = g :=
  Option.map_eq_some_iff.mp (h.flight ▸ hf)

theorem Renews.looks (h : Renews p s u) {g : Flight} (hl : s.Looks e g) :
    ∃ k, u.Looks e k ∧ p.flight k = g ∧ u.channel k.channel = s.channel g.channel := by
  obtain ⟨k, hk, rfl⟩ := h.flying hl.1
  exact ⟨k, ⟨hk, hl.2⟩, rfl, (h.channel k.channel).symm⟩

theorem Step.renewed (hs : Step s e t) (h : Renews p s u) (he : e.since p = some f) :
    ∃ v, Step u f v ∧ Renews p t.session v.session ∧ v.effects = t.effects ∧
      t.progress = p.progress v.progress := by
  obtain ⟨c, fl, chs, rt⟩ := s
  obtain rfl : c = u.context := h.context
  cases hs with
  | bannerShown hf hp =>
    obtain rfl := Option.some.inj he
    exact ⟨_, .bannerShown (h.grounded hf) hp, h.changed _, rfl, rfl⟩
  | nothingToRestart hf hn =>
    obtain rfl := Option.some.inj he
    exact ⟨_, .nothingToRestart (h.grounded hf) hn, h, rfl, rfl⟩
  | refused hf hq hx =>
    obtain rfl := Option.some.inj he
    exact ⟨_, .refused (h.grounded hf) hq hx, h, rfl, rfl⟩
  | busy hf hq hx ha =>
    obtain rfl := Option.some.inj he
    exact ⟨_, .busy (h.grounded hf) hq hx ha, h.changed _, rfl, rfl⟩
  | accepted hf hq hx ha =>
    obtain rfl := Option.some.inj he
    have hlen : chs.length = p.channels + u.channels.length := h.opened
    refine ⟨_, .accepted (h.grounded hf) hq hx ha, ?_, rfl, ?_⟩
    · simp only [hlen]
      exact h.takenOff _ _ _
    · simp only [hlen, Past.progress, Past.launch]
  | launchFailed hf hg =>
    obtain rfl := Option.some.inj he
    obtain ⟨k, hk, rfl⟩ := h.flying hf
    exact ⟨_, .launchFailed hk hg, h.landed k _, rfl, rfl⟩
  | launched hf hg =>
    obtain rfl := Option.some.inj he
    obtain ⟨k, hk, rfl⟩ := h.flying hf
    exact ⟨_, .launched hk hg, h.moved _ _ _, rfl, rfl⟩
  | startFailed hf hg =>
    obtain rfl := Option.some.inj he
    obtain ⟨k, hk, rfl⟩ := h.flying hf
    exact ⟨_, .startFailed hk hg, h.landed k _, rfl, rfl⟩
  | waiting hl hp =>
    obtain rfl := since_of_looks hl he
    obtain ⟨k, hk, rfl, hc⟩ := h.looks hl
    exact ⟨_, .waiting hk (hc ▸ hp), h.moved _ _ _, rfl, rfl⟩
  | hookLost hl hp =>
    obtain rfl := since_of_looks hl he
    obtain ⟨k, hk, rfl, hc⟩ := h.looks hl
    exact ⟨_, .hookLost hk (hc ▸ hp), h.landed k _, rfl, rfl⟩
  | exited hl hp =>
    obtain rfl := since_of_looks hl he
    obtain ⟨k, hk, rfl, hc⟩ := h.looks hl
    exact ⟨_, .exited hk (hc ▸ hp), h.landed k _, rfl, rfl⟩
  | abandoned hf hg =>
    obtain rfl := Option.some.inj he
    obtain ⟨k, hk, rfl⟩ := h.flying hf
    exact ⟨_, .abandoned hk hg, h.landed k _, rfl, rfl⟩
  | @signalled n code hn =>
    obtain ⟨m, rfl, rfl⟩ : ∃ m, n = p.channels + m ∧ f = .signal m code := since_of_ite he
    exact ⟨_, .signalled (h.channel m ▸ hn), h.rehooked (rehooked_signal ..) (rehooked_signal ..),
      rfl, rfl⟩
  | @cloned n hn =>
    obtain ⟨m, rfl, rfl⟩ : ∃ m, n = p.channels + m ∧ f = .cloneHook m := since_of_ite he
    have hu := h.channel m ▸ hn
    exact ⟨_, .cloned hu, h.rehooked (rehooked_cloneHook hn) (rehooked_cloneHook hu), rfl, rfl⟩
  | @dropped n hn =>
    obtain ⟨m, rfl, rfl⟩ : ∃ m, n = p.channels + m ∧ f = .dropHook m := since_of_ite he
    exact ⟨_, .dropped (h.channel m ▸ hn), h.rehooked (rehooked_dropHook ..) (rehooked_dropHook ..),
      rfl, rfl⟩
  | @recorded m =>
    have hlen : rt.length = p.latches + u.retired.length := h.discarded
    obtain ⟨k, hk, rfl⟩ : ∃ k, rt.length = p.latches + k ∧ f = .recordError k m :=
      since_of_ite he
    obtain rfl : k = u.retired.length := by omega
    exact ⟨_, .recorded, h.changed _, rfl, rfl⟩
  | @recordedLate n m l hl =>
    obtain ⟨k, rfl, rfl⟩ : ∃ k, n = p.latches + k ∧ f = .recordError k m := since_of_ite he
    exact ⟨_, .recordedLate (h.latch k ▸ hl), h.relatched k _, rfl, rfl⟩
  | reset hf =>
    obtain rfl := Option.some.inj he
    exact ⟨_, .reset (h.grounded hf), h.reset _ _, rfl, rfl⟩

end Steps

section Histories

variable {o : Boot.Options} {es fs : List Event}

/-- What comes after a hard reset, as a history of its own. -/
def afresh (o : Boot.Options) (es fs : List Event) : List Event :=
  fs.filterMap (Event.since (after o es).past)

/-- After a hard reset everything goes as in a new session. -/
structure StartsOver (o : Boot.Options) (es fs : List Event) : Prop where
  possible : Possible o (afresh o es fs)
  session : Renews (after o es).past (after o (fs ++ .hardReset :: es)) (after o (afresh o es fs))
  page : shown o (fs ++ .hardReset :: es) = shown o (afresh o es fs)
  launched : launches o (fs ++ .hardReset :: es) =
    (launches o (afresh o es fs)).map (after o es).past.launch ++ launches o es
  ended : results o (fs ++ .hardReset :: es) = results o (afresh o es fs) ++ results o es

theorem launches_cons (o : Boot.Options) (e : Event) (es : List Event) :
    launches o (e :: es) = ((after o es).next e).progress.launch?.toList ++ launches o es := by
  rw [launches]
  cases ((after o es).next e).progress <;> rfl

theorem results_cons (o : Boot.Options) (e : Event) (es : List Event) :
    results o (e :: es) = ((after o es).next e).progress.result?.toList ++ results o es := by
  rw [results]
  cases ((after o es).next e).progress <;> rfl

theorem starts_over_at_once (h : Possible o (.hardReset :: es)) : StartsOver o es [] := by
  have hf := stage_eq_none.mp h.1
  have hn := (Step.reset hf).next_eq
  rw [options_after o h.2] at hn
  refine ⟨trivial, ?_, ?_, ?_, ?_⟩
  · rw [List.nil_append, after_cons, hn]
    refine ⟨rfl, hf, rfl, ?_, by simp [past, afresh, after, new], ?_⟩
    · intro n
      simp [channel, past, afresh, after, new]
    · intro n
      refine (List.getElem?_eq_none ?_).trans List.getElem?_nil.symm
      simp only [past, List.length_append, List.length_singleton]
      omega
  · rw [List.nil_append, shown_cons, hn]
    rfl
  · rw [List.nil_append, launches_cons, hn]
    rfl
  · rw [List.nil_append, results_cons, hn]
    rfl

/-- From a hard reset on, a session goes as a new one does. -/
theorem starts_over (h : Possible o (fs ++ .hardReset :: es)) : StartsOver o es fs := by
  induction fs with
  | nil => exact starts_over_at_once h
  | cons e fs ih =>
    rw [List.cons_append] at h
    obtain ⟨hpos, hr, hb, hl, hd⟩ := ih h.2
    have hs := next_step h.1
    unfold afresh at hpos hr hb hl hd
    -- an event with a handle of the past is none for the new session, and every other event is a
    -- step of both
    cases he : e.since (after o es).past with
    | none =>
      obtain ⟨hu, hx, hk⟩ := hs.unseen_since hr he
      have hsame : afresh o es (e :: fs) = afresh o es fs := List.filterMap_cons_none he
      constructor
      all_goals rw [hsame]
      · exact hpos
      · exact hu
      · rw [List.cons_append, shown_cons, hk, hb]
        rfl
      · rw [List.cons_append, launches_cons, hx, hl]
        rfl
      · rw [List.cons_append, results_cons, hx, hd]
        rfl
    | some f =>
      obtain ⟨v, hv, hu, heff, hx⟩ := hs.renewed hr he
      have hsame : afresh o es (e :: fs) = f :: afresh o es fs := List.filterMap_cons_some he
      constructor
      all_goals rw [hsame]
      · exact ⟨hv.enabled, hpos⟩
      · rw [after_cons, afresh, hv.next_eq]
        exact hu
      · rw [List.cons_append, shown_cons, shown_cons, afresh, hv.next_eq, heff, hb,
          Event.backend_since he]
      · rw [List.cons_append, launches_cons, launches_cons, afresh, hv.next_eq, hx, hl,
          Past.launch?_progress, List.map_append, List.append_assoc]
      · rw [List.cons_append, results_cons, results_cons, afresh, hv.next_eq, hx, hd,
          Past.result?_progress, List.append_assoc]

end Histories

end Session

end Chip8Frame.Host
