import Chip8Frame.Proofs.Backdrop
import Chip8Frame.Proofs.Schedule
import Chip8Frame.Proofs.Undropped

/-! Interludes: all that can go on in a frame between two steps of a boot. Guests and pages act,
errors are caught, exit functions are called and replaced, commands are queued. The session of the
bridge sees hooks and latches used and nothing else, and a hook is used only while it exists,
because every hook of an exit channel lives in a closure of the page. -/

namespace Chip8Frame.Browser

open Host (Session)
open Host.Session (Reaches)

/-- The exit channel whose hook a closure holds. -/
def Handler.channel? : Handler → Option Nat
  | .exit n => some n
  | _ => none

theorem Handler.channel?_eq_some {a : Handler} {n : Nat} : a.channel? = some n ↔ a = .exit n := by
  cases a <;> simp [Handler.channel?]

def Realm.widthFor (r : Realm) : Host.Command → Binary64
  | .message _ => Frame.windowWidth r
  | _ => Frame.currentWidth r

theorem Realm.SameView.windowWidth {r s : Realm} (h : Realm.SameView r s) :
    Frame.windowWidth s = Frame.windowWidth r := by
  simp only [Frame.windowWidth, h.innerWidth_fst]

theorem Realm.SameView.currentWidth {r s : Realm} (h : Realm.SameView r s) :
    Frame.currentWidth s = Frame.currentWidth r := by
  simp only [Frame.currentWidth, h.frameElement, h.windowWidth]

theorem Realm.SameView.widthFor {r s : Realm} (h : Realm.SameView r s) (c : Host.Command) :
    s.widthFor c = r.widthFor c := by
  cases c <;> simp only [Realm.widthFor, h.windowWidth, h.currentWidth]

def Task.holds : Task → Bool
  | .loading _ _ | .running => true
  | _ => false

def Task.command? : Task → Option (Binary64 × Host.Command)
  | .command c width => some (width, c)
  | _ => none

/-- A task that is queued holds no lock, and a command has the width of this moment. -/
structure Task.Posted (r : Realm) (t : Task) : Prop where
  idle : t.holds = false
  width : ∀ w c, t.command? = some (w, c) → w = r.widthFor c

theorem Task.Posted.command {r : Realm} {c : Host.Command} {w : Binary64}
    (hw : w = r.widthFor c) : Task.Posted r (.command c w) := by
  refine ⟨rfl, fun w' c' hc => ?_⟩
  obtain ⟨rfl, rfl⟩ := Prod.mk.inj (Option.some.inj hc)
  exact hw

theorem Task.Posted.of_view {r s : Realm} {t : Task} (h : t.Posted s) (hv : Realm.SameView r s) :
    t.Posted r where
  idle := h.idle
  width w c hc := (h.width w c hc).trans (hv.widthFor c)

/-- The bridge sees its hooks and latches used. -/
structure Bridge.Drifts (b b' : Bridge) : Prop where
  surface : b'.surface = b.surface
  session : ∃ es, (∀ e ∈ es, e.bystander = true) ∧ Reaches b.session es b'.session

theorem Bridge.Drifts.refl (b : Bridge) : b.Drifts b := ⟨rfl, [], by simp, .refl⟩

theorem Bridge.Drifts.trans {b c d : Bridge} (h : b.Drifts c) (k : c.Drifts d) : b.Drifts d := by
  obtain ⟨es, hes, hr⟩ := h.session
  obtain ⟨fs, hfs, hk⟩ := k.session
  refine ⟨k.surface.trans h.surface, fs ++ es, ?_, hr.trans hk⟩
  intro e he
  rcases List.mem_append.mp he with he | he
  · exact hfs e he
  · exact hes e he

namespace Frame

def argv (f : Frame) (n : Nat) : Option (List String) := (f.guests[n]?).bind Guest.arguments

structure Drifts (f g : Frame) : Prop where
  steady : f.realm.Steady g.realm
  locked : g.locked = f.locked
  arguments : g.guests.map Guest.arguments = f.guests.map Guest.arguments
  posted : ∃ ts, g.tasks = f.tasks ++ ts ∧ ∀ t ∈ ts, t.Posted f.realm
  bridge : Option.Rel Bridge.Drifts f.bridge g.bridge

def exits (f : Frame) (n : Nat) : Nat := f.realm.closures.countP fun c => c.2 = .exit n

/-- Every hook lives in a closure, except for one hook of the channel `loose` if there is one. -/
structure Tidy (loose : Option Nat) (f : Frame) : Prop where
  fresh : ∀ c ∈ f.realm.closures, c.1 < f.realm.nextClosure
  nodup : (f.realm.closures.map Prod.fst).Nodup
  hooks : ∀ b, f.bridge = some b → ∀ n,
    (b.session.channel n).hooks = f.exits n + if loose = some n then 1 else 0

/-- An interlude, with the hook that is loose after it. -/
structure Goes (loose : Option Nat) (f g : Frame) : Prop where
  tidy : g.Tidy loose
  drifts : f.Drifts g

section Relations

variable {l l' : Option Nat} {f g k : Frame}

theorem posted_trans (hr : f.realm.Steady g.realm)
    (h : ∃ ts, g.tasks = f.tasks ++ ts ∧ ∀ t ∈ ts, t.Posted f.realm)
    (h' : ∃ ts, k.tasks = g.tasks ++ ts ∧ ∀ t ∈ ts, t.Posted g.realm) :
    ∃ ts, k.tasks = f.tasks ++ ts ∧ ∀ t ∈ ts, t.Posted f.realm := by
  obtain ⟨ts, ht, hp⟩ := h
  obtain ⟨us, hu, hq⟩ := h'
  refine ⟨ts ++ us, by rw [hu, ht, List.append_assoc], ?_⟩
  intro t hm
  rcases List.mem_append.mp hm with hm | hm
  · exact hp t hm
  · exact (hq t hm).of_view hr.toSameView

theorem Drifts.refl (f : Frame) : f.Drifts f where
  steady := .refl _
  locked := rfl
  arguments := rfl
  posted := ⟨[], by simp, by simp⟩
  bridge := by
    cases f.bridge with
    | none => exact .none
    | some b => exact .some (.refl b)

theorem Drifts.trans (h : f.Drifts g) (k' : g.Drifts k) : f.Drifts k where
  steady := h.steady.trans k'.steady
  locked := k'.locked.trans h.locked
  arguments := k'.arguments.trans h.arguments
  posted := posted_trans h.steady h.posted k'.posted
  bridge := by
    have hb := h.bridge
    have hc := k'.bridge
    generalize f.bridge = a, g.bridge = b, k.bridge = c at hb hc
    cases hb with
    | none =>
      cases hc with
      | none => exact .none
    | some hb =>
      cases hc with
      | some hc => exact .some (hb.trans hc)

theorem Drifts.argv (h : f.Drifts g) (n : Nat) : g.argv n = f.argv n := by
  have ha := congrArg (·[n]?) h.arguments
  simp only [List.getElem?_map] at ha
  simp only [Frame.argv]
  cases hf : f.guests[n]? <;> cases hg : g.guests[n]? <;> simp_all

theorem Goes.refl (h : f.Tidy l) : Goes l f f := ⟨h, .refl f⟩

theorem Goes.trans (h : Goes l f g) (k' : Goes l' g k) : Goes l' f k :=
  ⟨k'.tidy, h.drifts.trans k'.drifts⟩

theorem Goes.of_kept (h : f.Tidy l) {r : Realm} (hr : Realm.Kept f.realm r) :
    Goes l f { f with realm := r } where
  tidy := by
    refine ⟨?_, ?_, ?_⟩
    · simpa only [hr.closures, hr.nextClosure] using h.fresh
    · simpa only [hr.closures] using h.nodup
    · simpa only [exits, hr.closures] using h.hooks
  drifts :=
    { steady := hr.toSteady
      locked := rfl
      arguments := rfl
      posted := ⟨[], by simp, by simp⟩
      bridge := (Drifts.refl f).bridge }

theorem Goes.of_event (h : f.Tidy l) {b : Bridge} (hb : f.bridge = some b) {e : Session.Event}
    (hx : e.bystander = true) (he : b.session.Enabled e)
    (hh : ∀ n, ((b.session.next e).session.channel n).hooks =
      f.exits n + if l' = some n then 1 else 0) :
    Goes l' f { f with bridge := some { b with session := (b.session.next e).session } } where
  tidy := by
    refine ⟨h.fresh, h.nodup, ?_⟩
    intro c hc
    obtain rfl := Option.some.inj hc
    exact hh
  drifts :=
    { steady := .refl _
      locked := rfl
      arguments := rfl
      posted := ⟨[], by simp, by simp⟩
      bridge := by
        rw [hb]
        exact .some ⟨rfl, [e], by simpa using hx, .single he⟩ }

theorem Goes.of_hooks_kept (h : f.Tidy l) {b : Bridge} (hb : f.bridge = some b)
    {e : Session.Event} (hx : e.bystander = true) (he : b.session.Enabled e)
    (hp : ∀ launch, (b.session.next e).progress ≠ .launch launch) (hc : ∀ n, e ≠ .cloneHook n)
    (hd : ∀ n, e ≠ .dropHook n) :
    Goes l f { f with bridge := some { b with session := (b.session.next e).session } } := by
  refine .of_event h hb hx he fun n => ?_
  rw [(Session.next_step he).hooks_kept hp hc hd n, h.hooks b hb n]

end Relations

section Functions

variable {l : Option Nat} {f : Frame}

theorem report_goes (h : f.Tidy l) (n : Log.Notice) : Goes l f (f.report n) :=
  .of_kept h (.report _ n)

theorem record_goes (h : f.Tidy l) (e : Event) : Goes l f (f.record e) := .of_kept h (.record _ e)

theorem spawn_goes (h : f.Tidy l) {t : Task} (ht : t.Posted f.realm) : Goes l f (f.spawn t) where
  tidy := ⟨h.fresh, h.nodup, h.hooks⟩
  drifts :=
    { steady := .refl _
      locked := rfl
      arguments := rfl
      posted := ⟨[t], rfl, by simpa using ht⟩
      bridge := (Drifts.refl f).bridge }

theorem updateGuest_goes (h : f.Tidy l) (n : Nat) {change : Guest → Guest}
    (hc : ∀ g, (change g).arguments = g.arguments) : Goes l f (f.updateGuest n change) where
  tidy := ⟨h.fresh, h.nodup, h.hooks⟩
  drifts :=
    { steady := .refl _
      locked := rfl
      arguments := by
        apply List.ext_getElem?
        intro i
        simp only [updateGuest, List.getElem?_map, List.getElem?_modify]
        cases f.guests[i]? with
        | none => rfl
        | some g => by_cases hi : n = i <;> simp [hi, hc]
      posted := ⟨[], by simp [updateGuest], by simp⟩
      bridge := (Drifts.refl f).bridge }

theorem receive_goes (h : f.Tidy l) (data : Value) : Goes l f (f.receive data) := by
  simp only [receive]
  split
  · exact spawn_goes h (.command rfl)
  · exact report_goes h _

theorem apply_record (s : DocumentSurface) (latch : Host.Latch) (message : String) (r : Realm) :
    (s.apply (latch.record message).2 r).1 = s ∧
      Realm.Kept r (s.apply (latch.record message).2 r).2 :=
  ⟨s.apply_of_silent (latch.record_silent message) r,
    s.apply_kept (latch.record_silent message _) r⟩

theorem latchError_goes (h : f.Tidy l) (message : String) : Goes l f (f.latchError message) := by
  cases hb : f.bridge with
  | none =>
    simp only [latchError, hb]
    exact .refl h
  | some b =>
    have he : b.session.Enabled (.recordError b.session.retired.length message) := Nat.le_refl _
    have hg := Goes.of_hooks_kept h hb rfl he (by simp [Session.next]) (by simp) (by simp)
    obtain ⟨hs, hr⟩ := apply_record b.surface b.session.context.latch message f.realm
    have hrec : b.session.recordError b.session.retired.length message =
        (some b.session.context.latch.records,
          (b.session.next (.recordError b.session.retired.length message)).session,
          (b.session.context.latch.record message).2) := by
      simp [Session.next, Session.recordError]
    simp only [latchError, hb, hrec, hs]
    exact hg.trans (.of_kept hg.tidy hr)

theorem foldl_goes {α : Type} {step : Frame → α → Frame}
    (hs : ∀ {g : Frame} (a : α), g.Tidy l → Goes l g (step g a)) (h : f.Tidy l) (as : List α) :
    Goes l f (as.foldl step f) := by
  induction as generalizing f with
  | nil => exact .refl h
  | cons a as ih => exact (hs a h).trans (ih (hs a h).tidy)

theorem fire_goes {handle : Handler → Frame → Frame}
    (hs : ∀ {g : Frame} (a : Handler), g.Tidy l → Goes l g (handle a g)) (h : f.Tidy l)
    (type : String) : Goes l f (f.fire type handle).2 := by
  refine foldl_goes ?_ h _
  intro g a hg
  split
  · exact hs _ hg
  · exact .refl hg

theorem fireMessage_goes (h : f.Tidy l) (data : Value) : Goes l f (f.fireMessage data).2 := by
  refine fire_goes ?_ h _
  intro g a hg
  split
  · exact receive_goes hg data
  · exact .refl hg

theorem fireError_goes (h : f.Tidy l) (message : String) : Goes l f (f.fireError message).2 := by
  refine fire_goes ?_ h _
  intro g a hg
  split
  · exact latchError_goes hg message
  · exact .refl hg

/-- A closure that can be called keeps its hook alive. -/
theorem Tidy.hook (h : f.Tidy l) {b : Bridge} (hb : f.bridge = some b) {closure n : Nat}
    (hc : f.realm.handler? closure = some (.exit n)) : 0 < (b.session.channel n).hooks := by
  have hx : 0 < f.exits n := by
    apply List.countP_pos_iff.mpr
    obtain ⟨cs, ds, he, -⟩ := List.lookup_eq_some_iff.mp hc
    exact ⟨(closure, .exit n), by simp [he], by simp⟩
  rw [h.hooks b hb n]
  omega

theorem signalExit_goes (h : f.Tidy l) {closure n : Nat}
    (hc : f.realm.handler? closure = some (.exit n)) (code : Int32) :
    Goes l f (f.signalExit n code) := by
  cases hb : f.bridge with
  | none =>
    simp only [signalExit, hb]
    exact .refl h
  | some b =>
    have he : b.session.Enabled (.signal n code) := h.hook hb hc
    have hg := Goes.of_hooks_kept h hb rfl he (by simp [Session.next]) (by simp) (by simp)
    simp only [signalExit, hb]
    split
    · exact hg
    · exact hg.trans (report_goes hg.tidy _)

theorem callExit_goes (h : f.Tidy l) (guest : Option Nat) (code : Value) :
    Goes l f (f.callExit guest code).2 := by
  unfold callExit
  split
  · exact .refl h
  · split
    · exact .refl h
    · split
      · next hc => exact signalExit_goes h hc _
      · exact .refl h

theorem act_goes (h : f.Tidy l) (self : Option Nat) (a : Action) : Goes l f (act self f a).2 := by
  cases a with
  | exit guest code => exact callExit_goes h _ code
  | canvas count nested => exact .of_kept h (.addCanvases _ count nested)
  | error message => exact fireError_goes h message
  | message data => exact fireMessage_goes h data
  | key m => exact .refl h

theorem actAll_goes (h : f.Tidy l) (self : Option Nat) (actions : List Action) :
    Goes l f (actAll self f actions).2 := by
  unfold actAll
  change Goes l (([] : List Answer), f).2 _
  replace h : (([] : List Answer), f).2.Tidy l := h
  generalize (([] : List Answer), f) = p at h ⊢
  induction actions generalizing p with
  | nil => exact .refl h
  | cons a as ih =>
    have ha := act_goes h self a
    exact ha.trans (ih (p.1 ++ [(act self p.2 a).1], (act self p.2 a).2) ha.tidy)

/-! Exit closures and the hooks in them. -/

theorem dropClosure_closures {r : Realm} (hn : (r.closures.map Prod.fst).Nodup) {closure : Nat}
    {a : Handler} (hc : r.handler? closure = some a) :
    ∃ cs ds, r.closures = cs ++ (closure, a) :: ds ∧
      (r.dropClosure closure).closures = cs ++ ds := by
  obtain ⟨cs, ds, he, hcs⟩ := List.lookup_eq_some_iff.mp hc
  refine ⟨cs, ds, he, ?_⟩
  rw [he] at hn
  simp only [List.map_append, List.map_cons, List.nodup_append, List.nodup_cons] at hn
  obtain ⟨-, ⟨hds, -⟩, -⟩ := hn
  have hkeep : ∀ es : List (Nat × Handler), (∀ x ∈ es, x.1 ≠ closure) →
      es.filter (fun x => decide (x.1 ≠ closure)) = es :=
    fun es hes => List.filter_eq_self.mpr fun x hx => decide_eq_true (hes x hx)
  have h₁ := hkeep cs fun x hx hk => absurd (hcs x hx) (by simp [hk])
  have h₂ := hkeep ds fun x hx hk => hds (hk ▸ List.mem_map_of_mem hx)
  simp only [Realm.dropClosure, he, List.filter_append, List.filter_cons, h₁, h₂]
  simp

theorem dropClosure_of_none {r : Realm} {closure : Nat} (hc : r.handler? closure = none) :
    r.dropClosure closure = r := by
  have hne := List.lookup_eq_none_iff.mp hc
  have hf : r.closures.filter (fun x => decide (x.1 ≠ closure)) = r.closures :=
    List.filter_eq_self.mpr fun x hx =>
      decide_eq_true fun hk => absurd (hne x hx) (by simp [hk])
  simp only [Realm.dropClosure, hf]

theorem dropHook_goes {n : Nat} (h : f.Tidy (some n)) : Goes none f (f.dropHook n) := by
  cases hb : f.bridge with
  | none =>
    simp only [dropHook, hb]
    refine ⟨⟨h.fresh, h.nodup, ?_⟩, .refl f⟩
    simp [hb]
  | some b =>
    have hh := h.hooks b hb
    have he : b.session.Enabled (.dropHook n) := by
      have hn := hh n
      simp only [if_true] at hn
      show 0 < _
      omega
    simp only [dropHook, hb]
    refine .of_event h hb rfl he fun m => ?_
    show ((b.session.dropHook n).channel m).hooks = _
    rw [Session.channel_dropHook]
    have hm := hh m
    by_cases hnm : n = m
    · subst hnm
      simp only [if_true] at hm
      simp [Exit.Channel.dropHook, hm]
    · simpa [hnm] using hm

theorem dropClosure_goes (h : f.Tidy none) {closure : Nat} {a : Handler}
    (hc : f.realm.handler? closure = some a) :
    Goes a.channel? f { f with realm := f.realm.dropClosure closure } := by
  obtain ⟨cs, ds, he, hd⟩ := dropClosure_closures h.nodup hc
  have hsub : (cs ++ ds).Sublist f.realm.closures := by
    rw [he]
    exact List.Sublist.append_left (List.sublist_cons_self _ _) cs
  have hexits : ∀ n, f.exits n =
      (cs ++ ds).countP (fun c => c.2 = .exit n) + if a.channel? = some n then 1 else 0 := by
    intro n
    simp only [exits, he, List.countP_append, List.countP_cons, decide_eq_true_eq,
      Handler.channel?_eq_some]
    omega
  refine ⟨⟨?_, ?_, ?_⟩,
    ⟨.dropClosure _ _, rfl, rfl, ⟨[], by simp, by simp⟩, (Drifts.refl f).bridge⟩⟩
  · rw [hd]
    exact fun c hm => h.fresh c (hsub.subset hm)
  · rw [hd]
    exact h.nodup.sublist (hsub.map _)
  · intro b hb n
    have hh := h.hooks b hb n
    rw [hexits] at hh
    simpa only [exits, hd, reduceCtorEq, if_false, Nat.add_zero] using hh

theorem dropExitClosure_goes (h : f.Tidy none) (closure : Nat) :
    Goes none f (f.dropExitClosure closure) := by
  cases hc : f.realm.handler? closure with
  | none =>
    simp only [dropExitClosure, hc, dropClosure_of_none hc]
    exact .refl h
  | some a =>
    have hd := dropClosure_goes h hc
    cases a with
    | exit n =>
      have hk := hd.trans (dropHook_goes hd.tidy)
      simp only [dropExitClosure, hc]
      cases hb : f.bridge with
      | none => simpa only [dropHook, hb] using hk
      | some b => simpa only [dropHook, hb] using hk
    | _ =>
      simp only [dropExitClosure, hc]
      exact hd

theorem keepExitClosure_goes (h : f.Tidy none) (closure : Nat) :
    Goes none f (f.keepExitClosure closure) := by
  cases hb : f.bridge with
  | none =>
    simp only [keepExitClosure, hb]
    exact .refl h
  | some b =>
    have hg : Goes none f { f with bridge := some { b with exitClosure := some closure } } := by
      refine ⟨⟨h.fresh, h.nodup, ?_⟩,
        ⟨.refl _, rfl, rfl, ⟨[], by simp, by simp⟩, ?_⟩⟩
      · intro c hc
        obtain rfl := Option.some.inj hc
        exact h.hooks b hb
      · rw [hb]
        exact .some ⟨rfl, [], by simp, .refl⟩
    simp only [keepExitClosure, hb]
    split
    · exact hg.trans (dropExitClosure_goes hg.tidy _)
    · exact hg

theorem newClosure_goes {a : Handler} (h : f.Tidy a.channel?) :
    Goes none f { f with realm := (f.realm.newClosure a).2 } := by
  refine ⟨⟨?_, ?_, ?_⟩,
    ⟨.newClosure _ _, rfl, rfl, ⟨[], by simp, by simp⟩, (Drifts.refl f).bridge⟩⟩
  · intro c hm
    rcases List.mem_append.mp hm with hm | hm
    · exact Nat.lt_succ_of_lt (h.fresh c hm)
    · obtain rfl := List.mem_singleton.mp hm
      exact Nat.lt_succ_self _
  · simp only [Realm.newClosure, List.map_append, List.map_cons, List.map_nil]
    refine List.nodup_append.mpr ⟨h.nodup, by simp, ?_⟩
    rintro x hx y hy rfl
    obtain rfl := List.mem_singleton.mp hy
    obtain ⟨c, hc, he⟩ := List.mem_map.mp hx
    exact Nat.ne_of_lt (h.fresh c hc) he
  · intro b hb m
    rw [h.hooks b hb m]
    simp [exits, Realm.newClosure, List.countP_append, List.countP_cons,
      Handler.channel?_eq_some]

end Functions

/-! The launch and the run of a guest. -/

section Guests

variable {f : Frame}

theorem Tidy.with_guests {l : Option Nat} (h : f.Tidy l) (scripts : List GuestScript)
    (guests : List Guest) : Tidy l { f with scripts, guests } :=
  ⟨h.fresh, h.nodup, h.hooks⟩

theorem updateObject_goes {l : Option Nat} (h : f.Tidy l) (o : GuestObject)
    (change : Guest → Guest) (hc : ∀ g, (change g).arguments = g.arguments) :
    Goes l f (f.updateObject o change) := by
  cases o with
  | guest n => exact updateGuest_goes h n hc
  | nothing => exact .refl h

def dress (f : Frame) (o : GuestObject) (l : Host.Launch) : Frame :=
  f.updateObject o fun g => { g with arguments := some l.arguments.toList }

theorem dress_eq (f : Frame) (o : GuestObject) (l : Host.Launch) :
    f.dress o l = { f with guests := (f.dress o l).guests } := by
  cases o <;> rfl

theorem argv_dress {n : Nat} (hn : n < f.guests.length) (l : Host.Launch) :
    (f.dress (.guest n) l).argv n = some l.arguments.toList := by
  simp [dress, updateObject, updateGuest, argv, hn]

theorem equip_goes {l : Host.Launch} (h : f.Tidy (some l.channel)) (o : GuestObject) :
    ∃ guests, Goes none { f with guests } (f.equip o l).2 ∧
      ((f.equip o l).1 = .ok () → ∀ n, o = .guest n → n < f.guests.length →
        (f.equip o l).2.argv n = some l.arguments.toList) := by
  simp only [equip]
  cases (f.scriptOf o).argumentsThrow with
  | some v => exact ⟨f.guests, dropHook_goes h, nofun⟩
  | none =>
    refine ⟨(f.dress o l).guests, ?_⟩
    rw [← dress_eq]
    have hd : (f.dress o l).Tidy (some l.channel) := by
      rw [dress_eq]
      exact h.with_guests f.scripts _
    have hg := newClosure_goes (a := .exit l.channel) hd
    cases (f.scriptOf o).exitThrows with
    | some v => exact ⟨hg.trans (dropExitClosure_goes hg.tidy _), nofun⟩
    | none =>
      have hu := updateObject_goes hg.tidy o
        (fun g => { g with exitClosure := some (f.dress o l).realm.nextClosure }) fun _ => rfl
      have hkeep := keepExitClosure_goes hu.tidy (f.dress o l).realm.nextClosure
      have hk := hg.trans (hu.trans hkeep)
      refine ⟨hk, ?_⟩
      rintro - n rfl hn
      exact (hk.drifts.argv n).trans (argv_dress hn l)

theorem stream_goes {l : Option Nat} (h : f.Tidy l) (o : GuestObject) (url : String) :
    Goes l f (f.stream o url).2 ∧ ∀ n, (f.stream o url).1 = .ok n → o = .guest n := by
  cases o with
  | nothing => exact ⟨.refl h, nofun⟩
  | guest n =>
    simp only [stream]
    cases (f.scriptOf (.guest n)).importThrows with
    | some v => exact ⟨.refl h, nofun⟩
    | none =>
      have hr := record_goes h (.fetch url)
      refine ⟨hr.trans (record_goes hr.tidy _), ?_⟩
      intro m hm
      rw [Except.ok.inj hm]

theorem constructObject_eq (f : Frame) :
    ∃ scripts guests, f.constructObject.2 = { f with scripts, guests } ∧
      ∀ n, f.constructObject.1 = .ok (.guest n) → n < guests.length := by
  unfold constructObject
  split
  · exact ⟨f.scripts, f.guests, rfl, nofun⟩
  · exact ⟨f.scripts, f.guests, rfl, nofun⟩
  · exact ⟨f.scripts, f.guests, rfl, nofun⟩
  · simp only [constructGuest]
    cases (f.scripts.head?.getD .plain).constructThrows with
    | some v => exact ⟨f.scripts.drop 1, f.guests, rfl, nofun⟩
    | none =>
      refine ⟨f.scripts.drop 1, f.guests ++ [.new (f.scripts.head?.getD .plain)], rfl, ?_⟩
      intro n hn
      obtain rfl := GuestObject.guest.inj (Except.ok.inj hn)
      simp

theorem launchGuest_goes {l : Host.Launch} (h : f.Tidy (some l.channel)) :
    ∃ scripts guests, Goes none { f with scripts, guests } (f.launchGuest l).2 ∧
      ∀ n, (f.launchGuest l).1 = .ok n →
        (f.launchGuest l).2.argv n = some l.arguments.toList := by
  obtain ⟨scripts, guests, hc, hn⟩ := constructObject_eq f
  have ht := h.with_guests scripts guests
  unfold launchGuest
  cases hw : f.realm.hasWindow with
  | false => exact ⟨f.scripts, f.guests, dropHook_goes h, nofun⟩
  | true =>
    rcases hm : f.constructObject with ⟨made, g⟩
    rw [hm] at hc hn
    obtain rfl := hc
    cases made with
    | error e => exact ⟨scripts, guests, dropHook_goes ht, nofun⟩
    | ok o =>
      obtain ⟨dressed, hg, ha⟩ := equip_goes ht o
      refine ⟨scripts, dressed, ?_⟩
      rcases he : equip { f with scripts, guests } o l with ⟨ended, k⟩
      rw [he] at hg ha
      cases ended with
      | error e =>
        simp only [if_true, he]
        exact ⟨hg, nofun⟩
      | ok u =>
        obtain ⟨hs, ho⟩ := stream_goes hg.tidy o l.moduleUrl
        simp only [if_true, he]
        refine ⟨hg.trans hs, ?_⟩
        intro n hk
        obtain rfl := ho n hk
        exact (hs.drifts.argv n).trans (ha rfl n rfl (hn n rfl))

def acted (f : Frame) (n : Nat) (g : Guest) : Frame :=
  let f := f.record (.runGuest g.arguments)
  if g.script.atRun.isEmpty then f
  else (actAll (some n) f g.script.atRun).2.record (.atRun (actAll (some n) f g.script.atRun).1)

theorem runScript_snd (f : Frame) (n : Nat) (g : Guest) :
    (f.runScript n g).2 =
      match g.script.runThrows, g.script.returned with
      | none, .runPromise => (f.acted n g).spawn (.watching n false)
      | none, .settled outcome =>
          ((f.acted n g).updateGuest n fun g => { g with run := g.run.settle outcome }).spawn
            (.watching n false)
      | _, _ => f.acted n g := by
  simp only [runScript]
  cases g.script.runThrows with
  | some v => rfl
  | none => cases g.script.returned <;> rfl

theorem acted_goes {l : Option Nat} (h : f.Tidy l) (n : Nat) (g : Guest) :
    Goes l f (f.acted n g) := by
  have hrec := record_goes h (.runGuest g.arguments)
  unfold acted
  split
  · exact hrec
  · have ha := hrec.trans (actAll_goes hrec.tidy (some n) g.script.atRun)
    exact ha.trans (record_goes ha.tidy _)

theorem runScript_goes {l : Option Nat} (h : f.Tidy l) (n : Nat) (g : Guest) :
    Goes l f (f.runScript n g).2 := by
  have hrun := acted_goes h n g
  have hwatch : ∀ k, Goes l f k → Goes l f (k.spawn (.watching n false)) :=
    fun k hk => hk.trans (spawn_goes hk.tidy ⟨rfl, nofun⟩)
  rw [runScript_snd]
  split
  · exact hwatch _ hrun
  · exact hwatch _ (hrun.trans (updateGuest_goes hrun.tidy n fun _ => rfl))
  · exact hrun

theorem runGuest_goes {l : Option Nat} (h : f.Tidy l) (n : Nat) :
    Goes l f (f.runGuest n).2 := by
  simp only [runGuest]
  split
  · exact .refl h
  · split
    · exact .refl h
    · exact .refl h
    · exact .refl h
    · exact runScript_goes h n _

end Guests

end Frame

end Chip8Frame.Browser
