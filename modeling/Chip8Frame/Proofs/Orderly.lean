import Chip8Frame.Proofs.Installation
import Chip8Frame.Proofs.Polls

/-! Frames in order: the lock is taken exactly while one task waits with a boot in flight, and
before an installation there is nothing at all. Whatever happens to a frame keeps it in order. -/

namespace Chip8Frame.Browser

open Host (Session)
open Host.Session (Reaches)

namespace Frame

structure Orderly (f : Frame) : Prop where
  tidy : f.Tidy none
  holders : f.tasks.countP Task.holds = f.locked.toNat
  served : ∀ t ∈ f.tasks, t.holds = true → f.Serves t
  grounded : f.locked = false → ∀ b, f.bridge = some b → b.session.flight = none
  shown : ∀ b, f.bridge = some b → b.Shown
  bare : f.bridge = none → f.tasks = [] ∧ f.realm.listeners = [] ∧ f.realm.closures = []

/-- The command that a happening starts: the lock is free when its task is polled. -/
def started? (f : Frame) : Happening → Option (Binary64 × Host.Command)
  | .turn i => if f.locked then none else f.tasks[i]?.bind Task.command?
  | _ => none

def left? (f : Frame) (i : Nat) : Option Task := (f.tasks[i]?).bind fun t => (f.pollTask t).2.1

/-- The tasks that were there before a happening, or what it left of them. -/
def kept (f : Frame) : Happening → List Task
  | .turn i => f.tasks.take i ++ (f.left? i).toList ++ f.tasks.drop (i + 1)
  | _ => f.tasks

structure Leads (f : Frame) (x : Happening) (es : List Session.Event) (b b' : Bridge) : Prop where
  reaches : Reaches b.session es b'.session
  keeps : ∀ e ∈ es, e.keeps = true
  commands : es.filterMap Session.Event.command? = (f.started? x).toList

/-- A happening, with the tasks that it queues. -/
structure Advances (f : Frame) (x : Happening) (g : Frame) : Prop where
  orderly : g.Orderly
  posted : ∃ ts, g.tasks = f.kept x ++ ts ∧ ∀ t ∈ ts, t.Posted f.realm
  led : ∀ b, f.bridge = some b → ∃ b' es, g.bridge = some b' ∧ f.Leads x es b b'
  installed : f.bridge = none → ∀ b, g.bridge = some b → ∃ o, b.session = (Session.new o).1
  guests : f.started? x = none → g.guests.length = f.guests.length

section Tasks

variable {f g : Frame}

theorem Serves.holds {t : Task} (h : f.Serves t) : t.holds = true := by
  cases t with
  | loading | running => rfl
  | command | watching => exact h.elim

theorem Drifts.serves (h : f.Drifts g) {t : Task} (ht : f.Serves t) : g.Serves t := by
  cases t with
  | command | watching => exact ht.elim
  | loading n url =>
    obtain ⟨b, fl, hb, hf, hst, ha⟩ := ht
    obtain ⟨b', hb', hd⟩ := h.bridge_of_some hb
    exact ⟨b', fl, hb', hd.flight.trans hf, hst, (h.argv n).trans ha⟩
  | running =>
    obtain ⟨b, fl, hb, hf, hst⟩ := ht
    obtain ⟨b', hb', hd⟩ := h.bridge_of_some hb
    exact ⟨b', fl, hb', hd.flight.trans hf, hst⟩

theorem countP_posted {r : Realm} {ts : List Task} (h : ∀ t ∈ ts, t.Posted r) :
    ts.countP Task.holds = 0 :=
  List.countP_eq_zero.mpr fun t ht => by simp [(h t ht).idle]

theorem tasks_split {ts : List Task} {i : Nat} {t : Task} (h : ts[i]? = some t) :
    ts = ts.take i ++ t :: ts.drop (i + 1) := by
  obtain ⟨hi, rfl⟩ := List.getElem?_eq_some_iff.mp h
  rw [List.getElem_cons_drop, List.take_append_drop]

theorem leave_tasks {i : Nat} {t : Task} (h : f.tasks[i]? = some t) {ts : List Task}
    (hg : g.tasks = f.tasks ++ ts) (left : Option Task) :
    (g.leave i left).tasks = f.tasks.take i ++ left.toList ++ f.tasks.drop (i + 1) ++ ts := by
  obtain ⟨hi, -⟩ := List.getElem?_eq_some_iff.mp h
  cases left with
  | none =>
    simp only [leave, hg, List.eraseIdx_append_of_lt_length hi, List.eraseIdx_eq_take_drop_succ]
    simp
  | some u =>
    simp only [leave, hg, List.set_append_left _ _ hi, List.set_eq_take_append_cons_drop, hi,
      if_true]
    simp

@[simp] theorem leave_bridge (f : Frame) (i : Nat) (left : Option Task) :
    (f.leave i left).bridge = f.bridge := by
  cases left <;> rfl

@[simp] theorem leave_locked (f : Frame) (i : Nat) (left : Option Task) :
    (f.leave i left).locked = f.locked := by
  cases left <;> rfl

@[simp] theorem leave_guests (f : Frame) (i : Nat) (left : Option Task) :
    (f.leave i left).guests = f.guests := by
  cases left <;> rfl

@[simp] theorem leave_realm (f : Frame) (i : Nat) (left : Option Task) :
    (f.leave i left).realm = f.realm := by
  cases left <;> rfl

theorem leave_tidy {l : Option Nat} (h : f.Tidy l) (i : Nat) (left : Option Task) :
    (f.leave i left).Tidy l := by
  cases left <;> exact ⟨h.fresh, h.nodup, h.hooks⟩

theorem leave_serves {i : Nat} {left : Option Task} {t : Task} (h : g.Serves t) :
    (g.leave i left).Serves t := by
  cases left <;> exact h

end Tasks

section Order

variable {f g : Frame}

theorem Orderly.of_goes (h : f.Orderly) {b : Bridge} (hb : f.bridge = some b)
    (hg : Goes none f g) : g.Orderly := by
  obtain ⟨b', hb', hd⟩ := hg.drifts.bridge_of_some hb
  obtain ⟨ts, hts, hp⟩ := hg.drifts.posted
  have hbridge : ∀ c, g.bridge = some c → b' = c := fun c hc =>
    Option.some.inj (hb'.symm.trans hc)
  refine ⟨hg.tidy, ?_, ?_, ?_, ?_, ?_⟩
  · rw [hts, List.countP_append, countP_posted hp, h.holders, hg.drifts.locked, Nat.add_zero]
  · intro t ht hh
    rw [hts] at ht
    rcases List.mem_append.mp ht with ht | ht
    · exact hg.drifts.serves (h.served t ht hh)
    · exact absurd hh (by simp [(hp t ht).idle])
  · intro hl c hc
    obtain rfl := hbridge c hc
    exact hd.flight.trans (h.grounded (hg.drifts.locked ▸ hl) b hb)
  · intro c hc
    obtain rfl := hbridge c hc
    exact hd.shown (h.shown b hb)
  · intro hn
    exact absurd (hb'.symm.trans hn) (by simp)

theorem Orderly.bridge_of_mem (h : f.Orderly) {t : Task} (ht : t ∈ f.tasks) :
    ∃ b, f.bridge = some b := by
  cases hb : f.bridge with
  | some b => exact ⟨b, rfl⟩
  | none => simp [(h.bare hb).1] at ht

theorem Orderly.locked_of_holds (h : f.Orderly) {t : Task} (ht : t ∈ f.tasks)
    (hh : t.holds = true) : f.locked = true := by
  have hpos : 0 < f.tasks.countP Task.holds := List.countP_pos_iff.mpr ⟨t, ht, hh⟩
  rw [h.holders] at hpos
  cases hl : f.locked with
  | true => rfl
  | false => simp [hl] at hpos

/-- A task that neither holds the lock nor takes it. -/
inductive Idle (f : Frame) : Task → Prop where
  | watching (n : Nat) (waited : Bool) : Idle f (.watching n waited)
  | refused (hl : f.locked = true) (c : Host.Command) (w : Binary64) : Idle f (.command c w)

theorem Orderly.idle_or_polled (h : f.Orderly) {t : Task} (ht : t ∈ f.tasks) :
    f.Idle t ∨ f.locked = t.holds ∧ ∀ n waited, t ≠ .watching n waited := by
  cases t with
  | watching n waited => exact .inl (.watching n waited)
  | command c w =>
    cases hl : f.locked with
    | true => exact .inl (.refused hl c w)
    | false => exact .inr ⟨rfl, by simp⟩
  | loading | running => exact .inr ⟨h.locked_of_holds ht rfl, by simp⟩

theorem Idle.holds {t : Task} (h : f.Idle t) : t.holds = false := by
  cases h <;> rfl

theorem Idle.started? {i : Nat} {t : Task} (h : f.Idle t) (hi : f.tasks[i]? = some t) :
    f.started? (.turn i) = none := by
  cases h with
  | watching n waited => simp [Frame.started?, hi, Task.command?]
  | refused hl c w => simp [Frame.started?, hl]

theorem Idle.polled {t : Task} (h : f.Idle t) :
    ∃ r, Realm.Kept f.realm r ∧ (f.pollTask t).2.2 = { f with realm := r } := by
  cases h with
  | watching n waited =>
    simp only [pollTask]
    split
    · split
      · exact ⟨_, .refl _, rfl⟩
      · exact ⟨_, .refl _, rfl⟩
      · exact ⟨_, .report _ _, rfl⟩
    · exact ⟨_, .refl _, rfl⟩
  | refused hl c w =>
    have hp : f.pollTask (.command c w) = (true, none, f.report .commandRefused) := by
      simp only [pollTask, hl, if_true]
    rw [hp]
    exact ⟨_, .report _ _, rfl⟩

theorem Idle.left {t : Task} (h : f.Idle t) : ∀ u ∈ (f.pollTask t).2.1, u.holds = false := by
  cases h with
  | watching n waited =>
    simp only [pollTask]
    split
    · split <;> simp [Task.holds]
    · simp [Task.holds]
  | refused hl c w => simp [pollTask, hl]

theorem countP_split {ts : List Task} {i : Nat} {t : Task} (h : ts[i]? = some t) :
    ts.countP Task.holds =
      (ts.take i ++ ts.drop (i + 1)).countP Task.holds + t.holds.toNat := by
  have hs := congrArg (List.countP Task.holds) (tasks_split h)
  rw [hs, List.countP_append, List.countP_append, List.countP_cons]
  cases t.holds with
  | false => simp
  | true =>
    simp only [if_true, Bool.toNat_true]
    omega

theorem Orderly.leave_idle (h : f.Orderly) {i : Nat} {t : Task} (hi : f.tasks[i]? = some t)
    (ht : t.holds = false) {left : Option Task} (hl : ∀ u ∈ left, u.holds = false) :
    (f.leave i left).Orderly := by
  have htasks := leave_tasks hi (List.append_nil f.tasks).symm left
  rw [List.append_nil] at htasks
  have hcount := countP_split hi
  rw [ht, h.holders] at hcount
  have hleft : left.toList.countP Task.holds = 0 :=
    List.countP_eq_zero.mpr fun u hu => by simp [hl u (Option.mem_toList.mp hu)]
  refine ⟨leave_tidy h.tidy i left, ?_, ?_, ?_, ?_, ?_⟩
  · simp only [htasks, List.countP_append, leave_locked, hleft] at hcount ⊢
    simpa using hcount.symm
  · intro u hu hh
    rw [htasks] at hu
    apply leave_serves
    rcases List.mem_append.mp hu with hu | hu
    · rcases List.mem_append.mp hu with hu | hu
      · exact h.served u (List.mem_of_mem_take hu) hh
      · rw [hl u (Option.mem_toList.mp hu)] at hh
        cases hh
    · exact h.served u (List.mem_of_mem_drop hu) hh
  · simpa using h.grounded
  · simpa using h.shown
  · intro hn
    rw [leave_bridge] at hn
    simp [(h.bare hn).1] at hi

theorem Orderly.leave_polled (h : f.Orderly) {i : Nat} {t : Task} (hi : f.tasks[i]? = some t)
    (hlock : f.locked = t.holds) {es : List Session.Event} {left : Option Task}
    (hp : Polled es f left g) : (g.leave i left).Orderly := by
  obtain ⟨ts, hts, hposted⟩ := hp.posted
  have htasks := leave_tasks hi hts left
  have hcount := countP_split hi
  rw [h.holders, hlock] at hcount
  -- no other task can hold the lock, so none of them waits with a boot
  have hothers : (f.tasks.take i ++ f.tasks.drop (i + 1)).countP Task.holds = 0 := by omega
  have hidle := List.countP_eq_zero.mp hothers
  obtain ⟨b, b', -, hb', -⟩ := hp.session
  refine ⟨leave_tidy hp.tidy i left, ?_, ?_, ?_, ?_, ?_⟩
  · rw [List.countP_append] at hothers
    simp only [htasks, List.countP_append, leave_locked, hp.locked, countP_posted hposted]
    cases left with
    | none => simpa using hothers
    | some u =>
      have hu := (hp.served u rfl).holds
      simp [hu]
      omega
  · intro u hu hh
    apply leave_serves
    simp only [htasks, List.mem_append] at hu hidle
    rcases hu with ((hu | hu) | hu) | hu
    · exact absurd hh (hidle u (.inl hu))
    · exact hp.served u (Option.mem_toList.mp hu)
    · exact absurd hh (hidle u (.inr hu))
    · exact absurd hh (by simp [(hposted u hu).idle])
  · intro hl
    rw [leave_locked, hp.locked] at hl
    simpa using hp.grounded (Option.isNone_iff_eq_none.mp (by simpa using hl))
  · simpa using hp.shown
  · intro hn
    rw [leave_bridge, hb'] at hn
    cases hn

theorem Orderly.with_realm (h : f.Orderly) {r : Realm} (ht : Tidy none { f with realm := r })
    (hbare : f.bridge = none → r.listeners = [] ∧ r.closures = []) :
    Orderly { f with realm := r } where
  tidy := ht
  holders := h.holders
  served t hm hh := by
    have hs := h.served t hm hh
    cases t <;> exact hs
  grounded := h.grounded
  shown := h.shown
  bare hn := ⟨(h.bare hn).1, hbare hn⟩

theorem act_bare (h : f.Orderly) (hb : f.bridge = none) (a : Action) :
    ∃ r, Realm.Kept f.realm r ∧ (act none f a).2 = { f with realm := r } := by
  obtain ⟨-, hl, hc⟩ := h.bare hb
  have hfire : ∀ type handle, (f.fire type handle).2 = f := fun type handle => by
    simp [fire, Realm.listenersFor, hl]
  cases a with
  | exit guest code =>
    refine ⟨f.realm, .refl _, ?_⟩
    simp only [act, callExit, Realm.handler?, hc, List.lookup_nil]
    split
    · rfl
    · split <;> rfl
  | canvas count nested => exact ⟨_, .addCanvases _ count nested, rfl⟩
  | error message => exact ⟨f.realm, .refl _, hfire _ _⟩
  | message data => exact ⟨f.realm, .refl _, hfire _ _⟩
  | key m => exact ⟨f.realm, .refl _, rfl⟩

theorem closuresOf_heard (r : Realm) :
    ((closuresOf (heard r)).map Prod.fst).Nodup ∧
      ∀ c ∈ closuresOf (heard r), c.1 < r.nextClosure + 2 ∧ c.2.channel? = none := by
  simp only [heard, keyHeard]
  split <;> simp [closuresOf, errorListener, DocumentSurface.keyListener, Handler.channel?]

theorem Installed.grounded {options : Value} (hi : f.Installed options g) {b : Bridge}
    (hb : g.bridge = some b) : b.session.flight = none ∧ b.session.channels = [] := by
  obtain ⟨o, surface, -, hg⟩ := hi.bridge
  obtain rfl := Option.some.inj (hg.symm.trans hb)
  exact ⟨rfl, rfl⟩

theorem Installed.tidy {options : Value} (hi : f.Installed options g) : g.Tidy none := by
  obtain ⟨hnodup, hnew⟩ := closuresOf_heard f.realm
  refine ⟨?_, ?_, ?_⟩
  · rw [hi.closures, hi.nextClosure]
    exact fun c hc => (hnew c hc).1
  · rw [hi.closures]
    exact hnodup
  · intro b hb n
    have hx : g.exits n = 0 := by
      rw [exits, hi.closures]
      apply List.countP_eq_zero.mpr
      intro c hc he
      have hn := (hnew c hc).2
      rw [of_decide_eq_true he] at hn
      cases hn
    simp only [Session.channel, (hi.grounded hb).2, hx]
    rfl

theorem Orderly.unlocked (h : f.Orderly) (hb : f.bridge = none) : f.locked = false := by
  have hh := h.holders
  rw [(h.bare hb).1] at hh
  cases hl : f.locked with
  | false => rfl
  | true => simp [hl] at hh

theorem Installed.orderly (h : f.Orderly) (hb : f.bridge = none) {options : Value}
    (hi : f.Installed options g) : g.Orderly := by
  have ht : g.tasks = [] := by
    rw [hi.rest]
    exact (h.bare hb).1
  have hl : g.locked = false := by
    rw [hi.rest]
    exact h.unlocked hb
  refine ⟨hi.tidy, by simp [ht, hl], by simp [ht], fun _ b hg => (hi.grounded hg).1, ?_, ?_⟩
  · intro b hg fl hf
    rw [(hi.grounded hg).1] at hf
    cases hf
  · intro hn
    obtain ⟨o, surface, -, hg⟩ := hi.bridge
    exact absurd (hg.symm.trans hn) (by simp)

end Order

section Advances

variable {f g : Frame} {x : Happening}

theorem Advances.of_goes (h : f.Orderly) {b : Bridge} (hb : f.bridge = some b)
    (hg : Goes none f g) (hk : f.kept x = f.tasks) (hs : f.started? x = none) :
    f.Advances x g where
  orderly := h.of_goes hb hg
  posted := by
    rw [hk]
    exact hg.drifts.posted
  led c hc := by
    obtain ⟨c', hc', hd⟩ := hg.drifts.bridge_of_some hc
    obtain ⟨es, hes, hr⟩ := hd.session
    refine ⟨c', es, hc', hr, fun e he => Session.Event.keeps_of_bystander (hes e he), ?_⟩
    rw [hs]
    exact List.filterMap_eq_nil_iff.mpr fun e he => Session.Event.command?_of_bystander (hes e he)
  installed hn := absurd (hb.symm.trans hn) (by simp)
  guests _ := by simpa using congrArg List.length hg.drifts.arguments

theorem Advances.of_realm {r : Realm} (h : Orderly { f with realm := r })
    (hk : f.kept x = f.tasks) (hs : f.started? x = none) : f.Advances x { f with realm := r } where
  orderly := h
  posted := ⟨[], by simp [hk], by simp⟩
  led b hb := ⟨b, [], hb, .refl, by simp, by simp [hs]⟩
  installed hn b hb := absurd (hn.symm.trans hb) (by simp)
  guests _ := rfl

theorem tidy_bare (hb : f.bridge = none) {r : Realm} (hc : r.closures = []) :
    Tidy none { f with realm := r } :=
  ⟨by simp [hc], by simp [hc], fun b hx => absurd (hb.symm.trans hx) (by simp)⟩

theorem Orderly.unchanged (h : f.Orderly) (hb : f.bridge = none) (hg : f.Unchanged g) :
    g.Orderly := by
  obtain ⟨-, hl, hc⟩ := h.bare hb
  rw [hg]
  exact h.with_realm (tidy_bare hb hc) fun _ => ⟨hl, hc⟩

theorem act_advances (h : f.Orderly) (a : Action) : f.Advances (.act a) (f.next (.act a)) := by
  cases hb : f.bridge with
  | some b => exact .of_goes h hb (act_goes h.tidy none a) rfl rfl
  | none =>
    obtain ⟨r, hr, he⟩ := act_bare h hb a
    obtain ⟨-, hl, hc⟩ := h.bare hb
    simp only [next, he]
    exact .of_realm (h.with_realm (tidy_bare hb (hr.closures.trans hc)) fun _ =>
      ⟨hr.listeners.trans hl, hr.closures.trans hc⟩) rfl rfl

theorem change_advances (h : f.Orderly) (page : Realm) :
    f.Advances (.change page) (f.next (.change page)) :=
  .of_realm (h.with_realm ⟨h.tidy.fresh, h.tidy.nodup, h.tidy.hooks⟩ fun hn => (h.bare hn).2)
    rfl rfl

theorem restart_advances (h : f.Orderly) : f.Advances .restart (f.next .restart) := by
  cases hb : f.bridge with
  | none =>
    simp only [next, restart, hb, Option.isNone_none, if_true]
    exact .of_realm h rfl rfl
  | some b =>
    have hn : f.bridge.isNone = false := by rw [hb]; rfl
    simp only [next, restart, hn, Bool.false_eq_true, if_false]
    split
    · exact .of_goes h hb (.refl h.tidy) rfl rfl
    · exact .of_goes h hb (spawn_goes h.tidy (.command rfl)) rfl rfl

/-- The guests' promises matter to nobody but the tasks that wait for them. -/
theorem promise_advances (h : f.Orderly) (hx : f.kept x = f.tasks) (hs : f.started? x = none)
    (n : Nat) {change : Guest → Guest} (hc : ∀ g, (change g).arguments = g.arguments) :
    f.Advances x (f.updateGuest n change) := by
  cases hb : f.bridge with
  | some b => exact .of_goes h hb (updateGuest_goes h.tidy n hc) hx hs
  | none =>
    refine ⟨⟨h.tidy.with_guests _ _, h.holders, ?_, h.grounded, h.shown, h.bare⟩,
      ⟨[], by simp [hx, updateGuest], by simp⟩, ?_, ?_, ?_⟩
    · simp [updateGuest, (h.bare hb).1]
    · exact fun b hb' => absurd (hb.symm.trans hb') (by simp)
    · exact fun _ b hb' => absurd (hb.symm.trans hb') (by simp)
    · simp [updateGuest]

theorem Installed.advances {options : Value} {k : Frame} (hb : f.bridge = none)
    (hi : f.Installed options g) (hk : k.Orderly) (hbridge : k.bridge = g.bridge)
    (hposted : ∃ ts, k.tasks = g.tasks ++ ts ∧ ∀ t ∈ ts, t.Posted g.realm)
    (hguests : k.guests = g.guests) (hx : f.kept x = f.tasks) : f.Advances x k where
  orderly := hk
  posted := by
    obtain ⟨ts, hts, hp⟩ := hposted
    refine ⟨ts, ?_, fun t ht => (hp t ht).of_view hi.view⟩
    rw [hx, hts, hi.rest]
  led b hb' := absurd (hb.symm.trans hb') (by simp)
  installed _ b hb' := by
    obtain ⟨o, surface, -, hg⟩ := hi.bridge
    obtain rfl := Option.some.inj (hg.symm.trans (hbridge.symm.trans hb'))
    exact ⟨o, rfl⟩
  guests _ := by rw [hguests, hi.rest]

theorem Advances.bare (h : f.Advances x g) (hb : g.bridge = none) : f.bridge = none := by
  cases hc : f.bridge with
  | none => rfl
  | some b =>
    obtain ⟨b', es, hg, -⟩ := h.led b hc
    exact absurd (hg.symm.trans hb) (by simp)

theorem Installed.bridge_isSome {options : Value} (hi : f.Installed options g) :
    ∃ b, g.bridge = some b := by
  obtain ⟨o, surface, -, hg⟩ := hi.bridge
  exact ⟨_, hg⟩

theorem Orderly.install_fails (h : f.Orderly) {options : Value} (hi : ¬ f.Installable options) :
    ∃ e g, f.install options = (.error e, g) ∧ f.Unchanged g :=
  Frame.install_fails (fun hn => (h.bare hn).2) hi

theorem Orderly.install_succeeds (h : f.Orderly) {options : Value} (hi : f.Installable options) :
    ∃ g, f.install options = (.ok (), g) ∧ f.Installed options g ∧ g.Orderly := by
  obtain ⟨hl, hc⟩ := (h.bare hi.free).2
  obtain ⟨g, he, hg⟩ := Frame.install_succeeds hl hc hi
  exact ⟨g, he, hg, hg.orderly h hi.free⟩

theorem Advances.of_failed (h : f.Orderly) {options : Value} {e : EntryError}
    (he : f.install options = (.error e, g)) (hu : f.Unchanged g) (hx : f.kept x = f.tasks)
    (hs : f.started? x = none) : f.Advances x g := by
  cases hb : f.bridge with
  | some b =>
    obtain ⟨e', r, hr, he'⟩ := install_kept (f := f) (by simp [hb]) options
    obtain ⟨-, rfl⟩ := Prod.mk.inj (he.symm.trans he')
    exact .of_goes h hb (.of_kept h.tidy hr) hx hs
  | none =>
    have ho := h.unchanged hb hu
    unfold Unchanged at hu
    rw [hu] at ho ⊢
    exact .of_realm ho hx hs

theorem boot_advances (h : f.Orderly) (options : Value) :
    f.Advances (.boot options) (f.next (.boot options)) := by
  by_cases hi : f.Installable options
  · obtain ⟨g, he, hg, hog⟩ := h.install_succeeds hi
    simp only [next, bootFromAttributes, he]
    split
    · exact hg.advances hi.free hog rfl ⟨[], by simp, by simp⟩ rfl rfl
    · exact hg.advances hi.free hog rfl ⟨[], by simp, by simp⟩ rfl rfl
    · next n hn =>
      obtain ⟨b, hb⟩ := hg.bridge_isSome
      have hp : Task.Posted g.realm (.command (.frameLoaded (.ofAttributes n.attribute?))
          (elementWidth n)) := .command (by simp only [Realm.widthFor, currentWidth, hn])
      exact hg.advances hi.free (hog.of_goes hb (spawn_goes hog.tidy hp)) rfl
        ⟨_, rfl, by simpa using hp⟩ rfl rfl
  · obtain ⟨e, g, he, hu⟩ := h.install_fails hi
    simp only [next, bootFromAttributes, he]
    exact .of_failed h he hu rfl rfl

theorem listen_advances (h : f.Orderly) (options : Value) :
    f.Advances (.listen options) (f.next (.listen options)) := by
  by_cases hi : f.Installable options
  · obtain ⟨g, he, hg, hog⟩ := h.install_succeeds hi
    obtain ⟨b, hb⟩ := hg.bridge_isSome
    have hnew := newClosure_goes (a := .bootMessage) hog.tidy
    simp only [next, listenForMessages, he]
    have hn : ∀ r : Realm, g.bridge = none → r.listeners = [] ∧ r.closures = [] := fun r hn =>
      absurd (hb.symm.trans hn) (by simp)
    rw [Browsing.listen_eq]
    cases (g.realm.newClosure .bootMessage).2.failure? "add_event_listener" (some "message") with
    | some v =>
      have hd := dropClosure_newClosure hog.tidy.fresh .bootMessage
      have ht : Tidy none { g with realm := { g.realm with
          nextClosure := g.realm.nextClosure + 1 } } :=
        ⟨fun c hc => Nat.lt_succ_of_lt (hog.tidy.fresh c hc), hog.tidy.nodup, hog.tidy.hooks⟩
      rw [← hd] at ht
      exact hg.advances hi.free (hog.with_realm ht (hn _)) rfl ⟨[], by simp, by simp⟩ rfl rfl
    | none =>
      have ht : ∀ listeners events, Tidy none { g with realm := {
          (g.realm.newClosure .bootMessage).2 with listeners, events } } :=
        fun _ _ => ⟨hnew.tidy.fresh, hnew.tidy.nodup, hnew.tidy.hooks⟩
      exact hg.advances hi.free (hog.with_realm (ht _ _) (hn _)) rfl ⟨[], by simp, by simp⟩ rfl rfl
  · obtain ⟨e, g, he, hu⟩ := h.install_fails hi
    simp only [next, listenForMessages, he]
    exact .of_failed h he hu rfl rfl

end Advances

section Turns

variable {f : Frame} {b : Bridge} {i : Nat} {t : Task}

theorem left?_of_some (hi : f.tasks[i]? = some t) : f.left? i = (f.pollTask t).2.1 := by
  simp only [left?, hi, Option.bind_some]

theorem started?_of_some (hi : f.tasks[i]? = some t) :
    f.started? (.turn i) = if f.locked then none else t.command? := by
  simp only [started?, hi, Option.bind_some]

/-- The turn of a task that has nothing to do with the lock, or finds it taken. -/
theorem idle_turn (h : f.Orderly) (hb : f.bridge = some b) (hi : f.tasks[i]? = some t)
    (ht : t.holds = false) (hs : f.started? (.turn i) = none)
    (hg : Goes none f (f.pollTask t).2.2) (hl : ∀ u ∈ (f.pollTask t).2.1, u.holds = false) :
    f.Advances (.turn i) (f.turn i) := by
  have ho := Advances.of_goes (x := .restart) h hb hg rfl rfl
  obtain ⟨ts, hts, hp⟩ := hg.drifts.posted
  have hi' : (f.pollTask t).2.2.tasks[i]? = some t := by
    obtain ⟨hlt, -⟩ := List.getElem?_eq_some_iff.mp hi
    rw [hts, List.getElem?_append_left hlt, hi]
  rw [turn_of_some hi]
  refine ⟨ho.orderly.leave_idle hi' ht hl, ?_, ?_,
    fun hn => absurd (hb.symm.trans hn) (by simp), ?_⟩
  · refine ⟨ts, ?_, hp⟩
    rw [leave_tasks hi hts, kept, left?_of_some hi]
  · intro c hc
    obtain ⟨c', es, hc', hr, hk, hn⟩ := ho.led c hc
    exact ⟨c', es, by rw [leave_bridge]; exact hc', hr, hk, by rw [hs]; exact hn⟩
  · rw [leave_guests]
    exact fun _ => ho.guests rfl

/-- The turn of the task that holds the lock, or of a command that takes it. -/
theorem polled_turn (h : f.Orderly) (hb : f.bridge = some b) (hi : f.tasks[i]? = some t)
    (hlock : f.locked = t.holds) (hw : ∀ n waited, t ≠ .watching n waited) :
    f.Advances (.turn i) (f.turn i) := by
  have hmem : t ∈ f.tasks := List.mem_of_getElem? hi
  obtain ⟨es, hes, hp⟩ := pollTask_polled h.tidy hb (h.shown b hb) hlock (h.served t hmem)
    (fun ht => h.grounded (hlock.trans ht) b hb) hw
  obtain ⟨ts, hts, hposted⟩ := hp.posted
  rw [turn_of_some hi]
  refine ⟨h.leave_polled hi hlock hp, ?_, ?_,
    fun hn => absurd (hb.symm.trans hn) (by simp), ?_⟩
  · refine ⟨ts, ?_, hposted⟩
    rw [leave_tasks hi hts, kept, left?_of_some hi]
  · intro c hc
    obtain ⟨c', c'', hc', hb', hr⟩ := hp.session
    obtain rfl := Option.some.inj (hc.symm.trans hc')
    refine ⟨c'', es, by rw [leave_bridge]; exact hb', hr, hp.keeps, ?_⟩
    rw [hes, started?_of_some hi, hlock]
    cases t <;> rfl
  · intro hs
    rw [leave_guests]
    have ht : t.holds = true := by
      rw [started?_of_some hi, hlock] at hs
      cases t with
      | command | watching => simp_all [Task.holds, Task.command?]
      | loading | running => rfl
    exact pollTask_guests h.tidy hb ht (h.served t hmem ht)

theorem turn_advances (h : f.Orderly) (i : Nat) : f.Advances (.turn i) (f.turn i) := by
  cases hi : f.tasks[i]? with
  | none =>
    have hlen : f.tasks.length ≤ i := List.getElem?_eq_none_iff.mp hi
    rw [turn_of_none hi]
    refine .of_realm (r := f.realm) h ?_ ?_
    · simp only [kept, left?, hi, Option.bind_none, Option.toList_none, List.append_nil,
        List.take_of_length_le hlen, List.drop_eq_nil_of_le (Nat.le_succ_of_le hlen)]
    · simp only [started?, hi, Option.bind_none, ite_self]
  | some t =>
    have hmem : t ∈ f.tasks := List.mem_of_getElem? hi
    obtain ⟨b, hb⟩ := h.bridge_of_mem hmem
    rcases h.idle_or_polled hmem with hidle | ⟨hl, hw⟩
    · obtain ⟨r, hr, he⟩ := hidle.polled
      refine idle_turn h hb hi hidle.holds (hidle.started? hi) ?_ hidle.left
      rw [he]
      exact .of_kept h.tidy hr
    · exact polled_turn h hb hi hl hw

end Turns

theorem next_advances {f : Frame} (h : f.Orderly) (x : Happening) : f.Advances x (f.next x) := by
  cases x with
  | boot options => exact boot_advances h options
  | listen options => exact listen_advances h options
  | restart => exact restart_advances h
  | turn i => exact turn_advances h i
  | load guest outcome => exact promise_advances h rfl rfl _ fun _ => rfl
  | runDone guest outcome =>
    simp only [next, settleRun]
    split
    · exact .of_realm (r := f.realm) h rfl rfl
    · exact promise_advances h rfl rfl _ fun _ => rfl
  | act a => exact act_advances h a
  | change page => exact change_advances h page

theorem start_orderly (p : Opening) : (start p).Orderly where
  tidy := ⟨by simp [start, new, p.unclosed], by simp [start, new, p.unclosed],
    fun b hb => by cases hb⟩
  holders := rfl
  served := by simp [start, new]
  grounded _ b hb := by cases hb
  shown b hb := by cases hb
  bare _ := ⟨rfl, p.unheard, p.unclosed⟩

theorem after_orderly (p : Opening) (h : List Happening) : (after p h).Orderly := by
  induction h with
  | nil => exact start_orderly p
  | cons x h ih => exact (next_advances ih x).orderly

end Frame

end Chip8Frame.Browser
