import Chip8Frame.Proofs.History

/-! The exit channels of a session. An event changes at most the channel it names and that of the
boot in flight; nobody waits on a channel but the boot for which it was opened, and only as long
as that boot is in flight. -/

namespace Chip8Frame.Host.Session

def Awaited (s : Session) (n : Nat) : Prop := s.flight.map Flight.channel = some n

instance (s : Session) (n : Nat) : Decidable (s.Awaited n) :=
  inferInstanceAs (Decidable (_ = _))

section Channels

variable {s u : Session} {e : Event} {t : Turn} {m n : Nat}

theorem channel_lt (h : s.channel n ≠ default) : n < s.channels.length := by
  apply Nat.lt_of_not_le
  intro hn
  exact h (by simp [channel, List.getElem?_eq_none hn])

theorem channel_lt_of_hook (h : 0 < (s.channel n).hooks) : n < s.channels.length := by
  apply channel_lt
  intro hd
  rw [hd] at h
  exact absurd h (by decide)

theorem channel_modify {g : Exit.Channel → Exit.Channel}
    (hu : u.channels = s.channels.modify m g) (hg : m < s.channels.length ∨ g default = default) :
    u.channel n = if m = n then g (s.channel n) else s.channel n := by
  simp only [channel, hu, List.getElem?_modify]
  cases hn : s.channels[n]? with
  | some c => simp
  | none =>
    have hle : s.channels.length ≤ n := by simpa using hn
    by_cases hm : m = n
    · have hd : g default = default := hg.resolve_left (by omega)
      simp [hm, hd]
    · simp [hm]

theorem channel_cloneHook (h : 0 < (s.channel m).hooks) :
    (s.cloneHook m).channel n =
      if m = n then (s.channel n).cloneHook else s.channel n :=
  channel_modify rfl (.inl (channel_lt_of_hook h))

theorem channel_dropHook :
    (s.dropHook m).channel n = if m = n then (s.channel n).dropHook else s.channel n :=
  channel_modify rfl (.inr rfl)

theorem channel_landed {f : Flight} {h : Context} :
    (s.landed f h).channel n =
      if f.channel = n then (s.channel n).dropWait else s.channel n :=
  channel_modify rfl (.inr rfl)

theorem channel_signal {code : Int32} :
    (s.setChannel m ((s.channel m).signal code).2).channel n =
      if m = n then ((s.channel n).signal code).2 else s.channel n := by
  by_cases hm : m = n
  · subst hm
    simp only [channel, setChannel, if_true, List.getElem?_set_self']
    cases s.channels[m]? with
    | some c => rfl
    | none => rfl
  · simp [channel, setChannel, hm]

theorem channel_opened (hu : u.channels = s.channels ++ [Exit.Channel.opened]) :
    u.channel n = if n = s.channels.length then Exit.Channel.opened else s.channel n := by
  simp only [channel, hu]
  rcases Nat.lt_trichotomy n s.channels.length with hn | hn | hn
  · simp [List.getElem?_append_left hn, Nat.ne_of_lt hn]
  · simp [hn]
  · rw [List.getElem?_eq_none (by simp; omega), List.getElem?_eq_none (by omega)]
    simp [Nat.ne_of_gt hn]

/-- One channel is changed and nothing else. -/
structure Rehooked (n : Nat) (g : Exit.Channel → Exit.Channel) (s u : Session) : Prop where
  context : u.context = s.context
  flight : u.flight = s.flight
  retired : u.retired = s.retired
  opened : u.channels.length = s.channels.length
  channel : ∀ m, u.channel m = if n = m then g (s.channel m) else s.channel m

theorem rehooked_signal (s : Session) (n : Nat) (code : Int32) :
    Rehooked n (fun c => (c.signal code).2) s (s.setChannel n ((s.channel n).signal code).2) :=
  ⟨rfl, rfl, rfl, by simp [setChannel], fun _ => channel_signal⟩

theorem rehooked_cloneHook (h : 0 < (s.channel n).hooks) :
    Rehooked n Exit.Channel.cloneHook s (s.cloneHook n) :=
  ⟨rfl, rfl, rfl, by simp [cloneHook], fun _ => channel_cloneHook h⟩

theorem rehooked_dropHook (s : Session) (n : Nat) :
    Rehooked n Exit.Channel.dropHook s (s.dropHook n) :=
  ⟨rfl, rfl, rfl, by simp [dropHook], fun _ => channel_dropHook⟩

theorem Step.channels_length (hs : Step s e t) :
    s.channels.length ≤ t.session.channels.length := by
  cases hs <;> simp [refuse, remember, landed, setChannel, cloneHook, dropHook]

theorem signal_fst (s : Session) (n : Nat) (code : Int32) :
    (s.signal n code).1 = (s.channel n).armed := by
  show ((s.channel n).signal code).1 = _
  unfold Exit.Channel.signal
  split
  · next h => exact h.symm
  · next h => simpa using h

theorem awaited_iff : s.Awaited n ↔ ∃ f, s.flight = some f ∧ f.channel = n := by
  simp [Awaited]

theorem Step.awaited (hs : Step s e t)
    (hw : t.session.Awaited n) : s.Awaited n ∨ n = s.channels.length := by
  obtain ⟨g, hg, rfl⟩ := awaited_iff.mp hw
  cases hs with
  | accepted =>
    obtain rfl := Option.some.inj hg
    exact .inr rfl
  | launchFailed | startFailed | hookLost | exited | abandoned => cases hg
  | launched hf =>
    obtain rfl := Option.some.inj hg
    exact .inl (awaited_iff.mpr ⟨_, hf, rfl⟩)
  | waiting hl =>
    obtain rfl := Option.some.inj hg
    exact .inl (awaited_iff.mpr ⟨_, hl.1, rfl⟩)
  | _ => exact .inl (awaited_iff.mpr ⟨_, hg, rfl⟩)

theorem never_awaited_again {o : Boot.Options} {es fs : List Event} (h : Possible o (fs ++ es))
    (hl : n < (after o es).channels.length) (hw : ¬ (after o es).Awaited n) :
    n < (after o (fs ++ es)).channels.length ∧ ¬ (after o (fs ++ es)).Awaited n := by
  induction fs with
  | nil => exact ⟨hl, hw⟩
  | cons x fs ih =>
    obtain ⟨hlt, hn⟩ := ih h.2
    have hs := next_step h.1
    have hle := hs.channels_length
    refine ⟨Nat.lt_of_lt_of_le hlt hle, ?_⟩
    intro hx
    rcases hs.awaited hx with hx | hx
    · exact hn hx
    · exact Nat.ne_of_lt hlt hx

private theorem signal_waiting (c : Exit.Channel) (code : Int32) :
    (c.signal code).2.waiting = c.waiting := by
  unfold Exit.Channel.signal
  split <;> rfl

private theorem landed_unwaited {f : Flight} (hf : s.flight = some f)
    (h : ¬ s.Awaited n → (s.channel n).waiting = false) (c : Context) :
    ((s.landed f c).channel n).waiting = false := by
  rw [channel_landed]
  split
  · rfl
  · next hc =>
    apply h
    simp [Awaited, hf, hc]

theorem Step.unwaited (hs : Step s e t) (h : ¬ s.Awaited n → (s.channel n).waiting = false)
    (hn : ¬ t.session.Awaited n) : (t.session.channel n).waiting = false := by
  cases hs with
  | accepted hf =>
    have hne : s.channels.length ≠ n := by simpa [Awaited] using hn
    rw [channel_opened rfl, if_neg hne.symm]
    exact h (by simp [Awaited, hf])
  | launchFailed hf | startFailed hf | abandoned hf => exact landed_unwaited hf h _
  | hookLost hl | exited hl => exact landed_unwaited hl.1 h _
  | launched hf =>
    apply h
    simpa [Awaited, hf] using hn
  | waiting hl =>
    apply h
    simpa [Awaited, hl.1] using hn
  | signalled =>
    rw [channel_signal]
    split
    · rw [signal_waiting]
      exact h hn
    · exact h hn
  | cloned hc =>
    rw [channel_cloneHook hc]
    split
    · exact h hn
    · exact h hn
  | dropped =>
    rw [channel_dropHook]
    split
    · exact h hn
    · exact h hn
  | _ => exact h hn

/-- Nobody waits on a channel but the boot in flight on it. -/
theorem unwaited {o : Boot.Options} {es : List Event} (h : Possible o es)
    (hn : ¬ (after o es).Awaited n) : ((after o es).channel n).waiting = false := by
  induction es with
  | nil => rfl
  | cons e es ih => exact (next_step h.1).unwaited (ih h.2) hn

end Channels

end Chip8Frame.Host.Session
