import Chip8Frame.Proofs.ExitCalls

/-! The exit function of a launch. Its closure takes the hook of the launch, the bridge keeps the
closure alive, and the guest has it in its exit property. The closure of the launch before goes, and
its hook with it. -/

namespace Chip8Frame.Host.Session

def Unhooks (s u : Session) : Prop := u = s ∨ ∃ n, u = s.dropHook n

section Sessions

variable {s u : Session}

theorem Unhooks.boot? (h : Unhooks s u) : u.boot? = s.boot? := by
  rcases h with rfl | ⟨n, rfl⟩ <;> rfl

theorem Unhooks.opened (h : Unhooks s u) : u.channels.length = s.channels.length := by
  rcases h with rfl | ⟨n, rfl⟩
  · rfl
  · simp [dropHook]

theorem Unhooks.channel (h : Unhooks s u) (m : Nat) :
    (u.channel m).waiting = (s.channel m).waiting ∧
      (u.channel m).delivered = (s.channel m).delivered := by
  rcases h with rfl | ⟨n, rfl⟩
  · exact ⟨rfl, rfl⟩
  · rw [channel_dropHook]
    split <;> exact ⟨rfl, rfl⟩

end Sessions

end Chip8Frame.Host.Session

namespace Chip8Frame.Browser

open Host (Session)
open Host.Session (Unhooks)

theorem Realm.handler?_dropClosure (r : Realm) {k n : Nat} (h : k ≠ n) :
    (r.dropClosure n).handler? k = r.handler? k := by
  unfold Realm.handler? Realm.dropClosure
  induction r.closures with
  | nil => rfl
  | cons c cs ih =>
    by_cases hc : c.1 = n
    · have hk : (k == c.1) = false := by simpa [hc] using h
      rw [List.filter_cons_of_neg (by simpa using hc), ih, List.lookup_cons, hk]
    · rw [List.filter_cons_of_pos (by simpa using hc), List.lookup_cons, List.lookup_cons, ih]

theorem Realm.handler?_newClosure {r : Realm} (h : ∀ c ∈ r.closures, c.1 < r.nextClosure)
    (a : Handler) : (r.newClosure a).2.handler? r.nextClosure = some a := by
  have hn : r.closures.lookup r.nextClosure = none :=
    List.lookup_eq_none_iff.mpr fun c hc => by simpa using Nat.ne_of_gt (h c hc)
  simp [Realm.handler?, Realm.newClosure, List.lookup_append, hn]

namespace Frame

/-- The numbers of closures are not used again. -/
def Past (f : Frame) (b : Bridge) : Prop := ∀ k, b.exitClosure = some k → k < f.realm.nextClosure

section Launch

variable {f g : Frame} {b : Bridge} {l : Host.Launch}

theorem dropHook_eq (hb : f.bridge = some b) (n : Nat) :
    f.dropHook n = { f with bridge := some { b with session := b.session.dropHook n } } := by
  simp only [dropHook, hb]

theorem dropExitClosure_eq (hb : f.bridge = some b) (k : Nat) :
    ∃ s, Unhooks b.session s ∧ f.dropExitClosure k =
      { f with realm := f.realm.dropClosure k, bridge := some { b with session := s } } := by
  simp only [dropExitClosure, hb]
  split
  · next n c _ hc =>
    obtain rfl := Option.some.inj hc
    exact ⟨_, .inr ⟨n, rfl⟩, rfl⟩
  · exact ⟨_, .inl rfl, by rw [← hb]⟩

theorem keepExitClosure_eq (hb : f.bridge = some b) {k : Nat} (hk : b.exitClosure ≠ some k) :
    ∃ r s, Unhooks b.session s ∧ r.nextClosure = f.realm.nextClosure ∧
      r.handler? k = f.realm.handler? k ∧ f.keepExitClosure k =
        { f with realm := r, bridge := some { b with session := s, exitClosure := some k } } := by
  simp only [keepExitClosure, hb]
  cases hx : b.exitClosure with
  | none => exact ⟨f.realm, b.session, .inl rfl, rfl, rfl, rfl⟩
  | some old =>
    obtain ⟨s, hs, he⟩ := dropExitClosure_eq
      (f := { f with bridge := some { b with exitClosure := some k } }) rfl old
    have hne : k ≠ old := fun h => hk (by rw [hx, h])
    exact ⟨f.realm.dropClosure old, s, hs, rfl, f.realm.handler?_dropClosure hne, he⟩

/-- The hook of a launch is in the closure that the bridge keeps and that its guest was given. -/
structure Wired (s : Session) (channel : Nat) (g : Frame) (b : Bridge) : Prop where
  unhooks : Unhooks s b.session
  held : ∃ k, b.exitClosure = some k ∧ g.realm.handler? k = some (.exit channel) ∧
    some k ∈ g.guests.map Guest.exitClosure

def hook (f : Frame) (l : Host.Launch) : Frame :=
  { f with realm := (f.realm.newClosure (.exit l.channel)).2 }

def wire (f : Frame) (o : GuestObject) (l : Host.Launch) : Frame :=
  (f.hook l).updateObject o fun g => { g with exitClosure := some f.realm.nextClosure }

theorem equip_eq (f : Frame) (o : GuestObject) (l : Host.Launch) :
    f.equip o l =
      match (f.scriptOf o).argumentsThrow, (f.scriptOf o).exitThrows with
      | some v, _ => (.error (.instantiate v.describe), f.dropHook l.channel)
      | none, some v => (.error (.instantiate v.describe),
          ((f.dress o l).hook l).dropExitClosure (f.dress o l).realm.nextClosure)
      | none, none =>
          (.ok (), ((f.dress o l).wire o l).keepExitClosure (f.dress o l).realm.nextClosure) := by
  simp only [equip]
  cases (f.scriptOf o).argumentsThrow with
  | some v => rfl
  | none => cases (f.scriptOf o).exitThrows <;> rfl

theorem wire_exits {o : GuestObject} {n : Nat} (ho : o = .guest n) (hn : n < f.guests.length)
    (l : Host.Launch) :
    some f.realm.nextClosure ∈ (f.wire o l).guests.map Guest.exitClosure := by
  subst ho
  refine List.mem_of_getElem? (i := n) ?_
  simp [wire, updateObject, updateGuest, hook, hn]

theorem equip_wired (hfresh : ∀ c ∈ f.realm.closures, c.1 < f.realm.nextClosure)
    (hb : f.bridge = some b) (hp : f.Past b) (o : GuestObject) (l : Host.Launch) :
    ∃ b', (f.equip o l).2.bridge = some b' ∧ (f.equip o l).2.Past b' ∧
      ((f.equip o l).1 = .ok () → ∀ n, o = .guest n → n < f.guests.length →
        Wired b.session l.channel (f.equip o l).2 b') := by
  have hrealm : (f.dress o l).realm = f.realm := by cases o <;> rfl
  have hbridge : (f.dress o l).bridge = some b := by cases o <;> exact hb
  rw [equip_eq]
  cases (f.scriptOf o).argumentsThrow with
  | some v =>
    simp only [dropHook_eq hb]
    exact ⟨_, rfl, hp, by simp⟩
  | none =>
    cases (f.scriptOf o).exitThrows with
    | some v =>
      obtain ⟨s, -, he⟩ := dropExitClosure_eq (f := (f.dress o l).hook l) hbridge
        (f.dress o l).realm.nextClosure
      simp only [he]
      refine ⟨_, rfl, fun k hk => ?_, by simp⟩
      exact Nat.lt_succ_of_lt (hrealm ▸ hp k hk)
    | none =>
      have hne : b.exitClosure ≠ some (f.dress o l).realm.nextClosure := fun hk =>
        Nat.lt_irrefl _ (hrealm ▸ hp _ hk)
      have hx : ((f.dress o l).wire o l).realm.handler? (f.dress o l).realm.nextClosure =
          some (.exit l.channel) := by
        have hnew := Realm.handler?_newClosure (hrealm.symm ▸ hfresh) (.exit l.channel)
        cases o <;> exact hnew
      have hnext : ((f.dress o l).wire o l).realm.nextClosure =
          (f.dress o l).realm.nextClosure + 1 := by cases o <;> rfl
      obtain ⟨r, s, hs, hr, hkept, he⟩ := keepExitClosure_eq (f := (f.dress o l).wire o l) (b := b)
        (by cases o <;> exact hb) hne
      simp only [he]
      refine ⟨_, rfl, fun k hk => ?_, fun _ n ho hn => ⟨hs, _, rfl, hkept.trans hx, ?_⟩⟩
      · obtain rfl := Option.some.inj hk
        simp [hr, hnext]
      · refine wire_exits ho ?_ l
        simpa [ho, dress, updateObject, updateGuest] using hn

/-- A launch that succeeds has its exit function in place. -/
theorem launchGuest_wired (ht : f.Tidy (some l.channel)) (hb : f.bridge = some b) (hp : f.Past b) :
    ∃ b', (f.launchGuest l).2.bridge = some b' ∧ (f.launchGuest l).2.Past b' ∧
      ∀ n, (f.launchGuest l).1 = .ok n → Wired b.session l.channel (f.launchGuest l).2 b' := by
  obtain ⟨scripts, guests, hc, hn⟩ := constructObject_eq f
  unfold launchGuest
  cases hw : f.realm.hasWindow with
  | false =>
    simp only [dropHook_eq hb, Bool.false_eq_true, if_false]
    exact ⟨_, rfl, hp, by simp⟩
  | true =>
    rcases hm : f.constructObject with ⟨made, g⟩
    rw [hm] at hc hn
    obtain rfl := hc
    cases made with
    | error e =>
      have hd := dropHook_eq (f := { f with scripts, guests }) hb l.channel
      simp only [hd, if_true]
      exact ⟨_, rfl, hp, by simp⟩
    | ok o =>
      obtain ⟨b', hb', hp', hwired⟩ := equip_wired (f := { f with scripts, guests }) ht.fresh hb hp o l
      rcases he : equip { f with scripts, guests } o l with ⟨ended, k⟩
      rw [he] at hb' hp' hwired
      cases ended with
      | error e =>
        simp only [if_true, he]
        exact ⟨b', hb', hp', by simp⟩
      | ok u =>
        simp only [if_true, he]
        cases o with
        | nothing => exact ⟨b', hb', hp', fun _ hx => by cases hx⟩
        | guest n =>
          have hwired' := hwired rfl n rfl (hn n rfl)
          simp only [stream]
          cases (k.scriptOf (.guest n)).importThrows with
          | some v => exact ⟨b', hb', hp', fun _ hx => by cases hx⟩
          | none => exact ⟨b', hb', hp', fun _ _ => ⟨hwired'.unhooks, hwired'.held⟩⟩

end Launch

end Frame

end Chip8Frame.Browser
