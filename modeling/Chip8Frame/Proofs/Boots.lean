import Chip8Frame.Proofs.Lock

/-! The boots of a frame, each with the geometry of the page at the moment when its command was
queued. Neither is kept by the frame itself: the geometry of a queued command and the list of the
boots so far are read off the history. What the session remembers agrees with them. -/

namespace Chip8Frame.Host.Session

/-- Nothing that a restart depends on is different, and no other boot is in flight. -/
structure Remembers (s u : Session) : Prop where
  options : u.context.options = s.context.options
  target : u.context.lastRequest = s.context.lastRequest
  flight : ∀ g, u.flight = some g → ∃ f, s.flight = some f ∧ g.config = f.config

section Steps

variable {s u : Session} {e : Event} {t : Turn}

theorem Step.options (hs : Step s e t) : t.session.context.options = s.context.options := by
  cases hs with
  | exited =>
    simp only [landed, Context.exited]
    split <;> rfl
  | _ => rfl

theorem Step.remembers (hs : Step s e t) (hk : e.keeps = true) (hc : e.command? = none) :
    Remembers s t.session := by
  refine ⟨hs.options, hs.lastRequest ?_ ?_, ?_⟩
  · rintro w c rfl
    cases hc
  · rintro rfl
    cases hk
  · intro g hg
    cases hs with
    | bannerShown | nothingToRestart | refused | busy | accepted => cases hc
    | launchFailed | startFailed | hookLost | exited | abandoned => cases hg
    | launched hf =>
      obtain rfl := Option.some.inj hg
      exact ⟨_, hf, rfl⟩
    | waiting hl =>
      obtain rfl := Option.some.inj hg
      exact ⟨_, hl.1, rfl⟩
    | reset => cases hk
    | _ => exact ⟨g, hg, rfl⟩

theorem Reaches.remembers {es : List Event} (h : Reaches s es u)
    (hk : ∀ e ∈ es, e.keeps = true) (hc : ∀ e ∈ es, e.command? = none) : Remembers s u := by
  induction h with
  | refl => exact ⟨rfl, rfl, fun g hg => ⟨g, hg, rfl⟩⟩
  | tail _ he ih =>
    have hr := ih (fun x hx => hk x (List.mem_cons_of_mem _ hx)) fun x hx =>
      hc x (List.mem_cons_of_mem _ hx)
    have hn := (next_step he).remembers (hk _ List.mem_cons_self) (hc _ List.mem_cons_self)
    refine ⟨hn.options.trans hr.options, hn.target.trans hr.target, fun g hg => ?_⟩
    obtain ⟨f, hf, hgf⟩ := hn.flight g hg
    obtain ⟨f', hf', hff'⟩ := hr.flight f hf
    exact ⟨f', hf', hgf.trans hff'⟩

theorem Reaches.head {es : List Event} (h : Reaches s (es ++ [e]) u) :
    Reaches (s.next e).session es u := by
  induction es generalizing u with
  | nil =>
    cases h with
    | tail h _ =>
      cases h
      exact .refl
  | cons x es ih =>
    cases h with
    | tail h he => exact .tail (ih h) he

theorem command_accepted (hf : s.flight = none) {w : Binary64} {c : Command} {a : Attempt}
    (ha : s.attempt? w c = some a) :
    (s.command w c).session.context.lastRequest = some a.request ∧
      ∃ g, (s.command w c).session.flight = some g ∧ g.config = a.config := by
  obtain ⟨hr, hc, -, -⟩ := attempt?_eq_some ha
  refine ⟨by simp [target_of_command hf, ha], ?_⟩
  rw [attempt?_of_resolve hr hc] at ha
  split at ha
  · next hs =>
    have hstep := Step.accepted hf hr hc hs
    have hn : (s.command w c).session = _ := congrArg Turn.session hstep.next_eq
    rw [hn]
    exact ⟨_, rfl, rfl⟩
  · cases ha

theorem command_turned_away (hf : s.flight = none) (hs : s.context.state.acceptsBoot = true)
    {w : Binary64} {c : Command} (ha : s.attempt? w c = none) :
    Remembers s (s.command w c).session := by
  have hn : s.busy? w c = none := by
    cases hb : s.busy? w c with
    | none => rfl
    | some r =>
      have hst := (busy?_eq_some hf hb).2
      rw [hs] at hst
      cases hst
  have hstep := command_step hf w c
  have hu := hstep.options
  have ht := target_of_command hf w c
  rw [ha, hn] at ht
  refine ⟨hu, by simpa using ht, ?_⟩
  intro g hg
  obtain ⟨w', c', r, config, he, hr, hc, hst, -⟩ := hstep.takeoff hf hg
  cases he
  rw [attempt?_of_resolve hr hc, hst] at ha
  cases ha

end Steps

end Chip8Frame.Host.Session

namespace Chip8Frame.Browser

open Host (Session)
open Host.Session (Reaches Remembers next_step)

structure ElementGeometry where
  isFrame : Bool
  declared : Option String
  layout : Int
  deriving DecidableEq

/-- What the page decides about the size of a boot: the element around it, if it can be had, and
the inner width of the window. -/
structure Geometry where
  element : Option ElementGeometry
  window : Binary64
  deriving DecidableEq

def ElementGeometry.ofNode (n : Node) : ElementGeometry :=
  ⟨n.isFrame, n.attribute? "width", n.clientWidth⟩

def ElementGeometry.width (e : ElementGeometry) : Binary64 :=
  let declared := if e.isFrame then Decimal.read (Text.trim (e.declared.getD "")) else none
  declared.getD (Binary64.ofInt e.layout)

def Realm.geometry (r : Realm) : Geometry where
  element :=
    match (Browsing.frameElement r).1 with
    | .ok n => n.map .ofNode
    | .error _ => none
  window := Frame.windowWidth r

namespace Geometry

def current (g : Geometry) : Binary64 := (g.element.map ElementGeometry.width).getD g.window

def widthFor (g : Geometry) : Host.Command → Binary64
  | .message _ => g.window
  | _ => g.current

end Geometry

theorem Realm.geometry_current (r : Realm) : r.geometry.current = Frame.currentWidth r := by
  unfold Geometry.current Realm.geometry Frame.currentWidth
  rcases (Browsing.frameElement r).1 with _ | _ | n <;> rfl

theorem Realm.geometry_widthFor (r : Realm) (c : Host.Command) :
    r.geometry.widthFor c = r.widthFor c := by
  cases c with
  | message m => rfl
  | frameLoaded | restart => exact r.geometry_current

/-- A boot that was accepted, with the geometry in which its command was queued. -/
structure Accepted where
  geometry : Geometry
  command : Host.Command
  request : Boot.Request
  config : Boot.Config

def Accepted.argv (a : Accepted) : List String := a.config.arguments.toList

def Accepted.display (a : Accepted) : UInt32 × UInt32 := a.config.displaySize

namespace Frame

/-- The tasks that a happening leaves of a queue, each with its geometry. -/
def staying (f : Frame) (q : List (Geometry × Task)) : Happening → List (Geometry × Task)
  | .turn i =>
      q.take i ++ (q[i]?.bind fun x => (f.left? i).map (x.1, ·)).toList ++ q.drop (i + 1)
  | _ => q

/-- The tasks of a frame, each with the geometry in which it was queued. -/
def queue (p : Opening) : List Happening → List (Geometry × Task)
  | [] => []
  | x :: h =>
      (after p h).staying (queue p h) x ++
        ((after p (x :: h)).tasks.drop ((after p h).kept x).length).map
          ((after p h).realm.geometry, ·)

def accepted? (f : Frame) (q : List (Geometry × Task)) : Happening → Option Accepted
  | .turn i =>
      match f.locked, f.bridge, q[i]? with
      | false, some b, some (g, .command c w) =>
          (b.session.attempt? w c).map fun a => ⟨g, c, a.request, a.config⟩
      | _, _, _ => none
  | _ => none

/-- The boots that were accepted, newest first. -/
def boots (p : Opening) : List Happening → List Accepted
  | [] => []
  | x :: h => ((after p h).accepted? (queue p h) x).toList ++ boots p h

section Queue

variable {p : Opening} {h : List Happening}

theorem staying_tasks {f : Frame} {q : List (Geometry × Task)} (hq : q.map Prod.snd = f.tasks)
    (x : Happening) : (f.staying q x).map Prod.snd = f.kept x := by
  cases x with
  | turn i =>
    have hi : (q[i]?).map Prod.snd = f.tasks[i]? := by rw [← hq, List.getElem?_map]
    have hleft : (q[i]?.bind fun x => (f.left? i).map (x.1, ·)).toList.map Prod.snd =
        (f.left? i).toList := by
      cases hx : q[i]? with
      | none =>
        rw [hx] at hi
        simp [left?, ← hi]
      | some x => cases f.left? i <;> rfl
    simp only [staying, kept, List.map_append, List.map_take, List.map_drop, hq, hleft]
  | _ => exact hq

theorem queue_tasks (p : Opening) (h : List Happening) :
    (queue p h).map Prod.snd = (after p h).tasks := by
  induction h with
  | nil => rfl
  | cons x h ih =>
    obtain ⟨ts, hts, -⟩ := (next_advances (after_orderly p h) x).posted
    simp only [queue, List.map_append, staying_tasks ih, after_cons, hts, List.drop_left,
      List.map_map, Function.comp_def, List.map_id']

theorem queue_width {y : Geometry × Task} (hy : y ∈ queue p h) {w : Binary64} {c : Host.Command}
    (hc : y.2.command? = some (w, c)) : w = y.1.widthFor c := by
  induction h with
  | nil => cases hy
  | cons x h ih =>
    obtain ⟨ts, hts, hp⟩ := (next_advances (after_orderly p h) x).posted
    rw [queue, after_cons, hts, List.drop_left] at hy
    rcases List.mem_append.mp hy with hy | hy
    · cases x with
      | turn i =>
        simp only [staying, List.mem_append] at hy
        rcases hy with (hy | hy) | hy
        · exact ih (List.mem_of_mem_take hy)
        · obtain ⟨z, -, hz⟩ := Option.bind_eq_some_iff.mp (Option.mem_toList.mp hy)
          obtain ⟨u, hu, rfl⟩ := Option.map_eq_some_iff.mp hz
          obtain ⟨t, -, ht⟩ := Option.bind_eq_some_iff.mp hu
          have hn := pollTask_left (after p h) t u ht
          rw [hn] at hc
          cases hc
        · exact ih (List.mem_of_mem_drop hy)
      | _ => exact ih hy
    · obtain ⟨t, ht, rfl⟩ := List.mem_map.mp hy
      rw [(hp t ht).width w c hc, Realm.geometry_widthFor]

theorem queue_restart (hb : (after p h).bridge.isSome = true)
    (hw : (after p h).realm.hasWindow = true) :
    queue p (.restart :: h) = queue p h ++
      [((after p h).realm.geometry, .command .restart (currentWidth (after p h).realm))] := by
  have hn : (after p h).bridge.isNone = false := by simp [hb]
  simp [queue, staying, kept, after_cons, next, restart, hn, hw, dispatch, spawn]

end Queue

/-- Restarts ask for what was booted before them. -/
def Repeating : List Accepted → Prop
  | [] => True
  | a :: as =>
      (a.command = .restart → as.head?.map Accepted.request = some a.request) ∧ Repeating as

/-- What a session holds of the boots that it accepted. -/
structure Books (as : List Accepted) (s : Session) : Prop where
  target : s.context.lastRequest = as.head?.map Accepted.request
  resolved : ∀ a ∈ as, a.request.parameters.resolve (a.geometry.widthFor a.command)
    s.context.options = .ok a.config
  flight : ∀ fl, s.flight = some fl → ∃ a, as.head? = some a ∧ fl.config = a.config
  repeating : Repeating as

section Books

variable {as : List Accepted} {s u : Session}

theorem Books.new (o : Boot.Options) : Books [] (Session.new o).1 :=
  ⟨rfl, by simp, fun fl hf => (Option.some_ne_none fl hf.symm).elim, trivial⟩

theorem Books.remembers (h : Books as s) (hr : Remembers s u) : Books as u where
  target := hr.target.trans h.target
  resolved a ha := hr.options ▸ h.resolved a ha
  flight fl hf := by
    obtain ⟨f, hf', hc⟩ := hr.flight fl hf
    obtain ⟨a, ha, hca⟩ := h.flight f hf'
    exact ⟨a, ha, hc.trans hca⟩
  repeating := h.repeating

theorem Books.command (h : Books as s) (hf : s.flight = none)
    (hs : s.context.state.acceptsBoot = true) (g : Geometry) (c : Host.Command) :
    Books (((s.attempt? (g.widthFor c) c).map fun a =>
      (⟨g, c, a.request, a.config⟩ : Accepted)).toList ++ as)
      (s.command (g.widthFor c) c).session := by
  have hstep := Session.command_step hf (g.widthFor c) c
  cases ha : s.attempt? (g.widthFor c) c with
  | none => exact h.remembers (Session.command_turned_away hf hs ha)
  | some a =>
    obtain ⟨ht, fl, hfl, hc⟩ := Session.command_accepted hf ha
    obtain ⟨hr, hres, -, -⟩ := Session.attempt?_eq_some ha
    refine ⟨ht, ?_, ?_, ?_, h.repeating⟩
    · intro b hb
      rw [hstep.options]
      rcases List.mem_cons.mp hb with rfl | hb
      · exact hres
      · exact h.resolved b hb
    · intro fl' hfl'
      obtain rfl := Option.some.inj (hfl.symm.trans hfl')
      exact ⟨_, rfl, hc⟩
    · rintro rfl
      exact h.target.symm.trans hr

end Books

section Histories

variable {p : Opening} {h : List Happening}

theorem accepted?_of_idle {f : Frame} {q : List (Geometry × Task)}
    (hq : q.map Prod.snd = f.tasks) {x : Happening} (hs : f.started? x = none) :
    f.accepted? q x = none := by
  cases x with
  | turn i =>
    have hi : (q[i]?).map Prod.snd = f.tasks[i]? := by rw [← hq, List.getElem?_map]
    simp only [started?, ← hi] at hs
    simp only [accepted?]
    split
    · next hl _ hx => simp [hl, hx, Task.command?] at hs
    · rfl
  | _ => rfl

theorem accepted?_of_bare {f : Frame} (hb : f.bridge = none) (q : List (Geometry × Task))
    (x : Happening) : f.accepted? q x = none := by
  cases x with
  | turn i => simp [accepted?, hb]
  | _ => rfl

theorem boots_of_bare (hb : (after p h).bridge = none) : boots p h = [] := by
  induction h with
  | nil => rfl
  | cons x h ih =>
    have hb' := (next_advances (after_orderly p h) x).bare hb
    simp [boots, accepted?_of_bare hb', ih hb']

theorem turn_books {b b' : Bridge} (hb : (after p h).bridge = some b)
    (hbooks : Books (boots p h) b.session) (hl : (after p h).locked = false) {i : Nat}
    {g : Geometry} {c : Host.Command} {w : Binary64}
    (hi : (queue p h)[i]? = some (g, .command c w))
    (hb' : (after p (.turn i :: h)).bridge = some b') :
    Books (boots p (.turn i :: h)) b'.session := by
  have ho := after_orderly p h
  have hf := ho.grounded hl b hb
  have hw : w = g.widthFor c := queue_width (List.mem_of_getElem? hi) rfl
  have ht : (after p h).tasks[i]? = some (.command c w) := by
    rw [← queue_tasks, List.getElem?_map, hi]
    rfl
  obtain ⟨es, hes, hp⟩ := startCommand_polled ho.tidy hb hf (ho.shown b hb) c w
  obtain ⟨c', d, hc', hd, hr⟩ := hp.session
  obtain rfl := Option.some.inj (hb.symm.trans hc')
  have hturn : (after p (.turn i :: h)).bridge = ((after p h).startCommand c w).2.bridge := by
    rw [after_cons, next, turn_of_some ht, leave_bridge]
    simp only [pollTask, hl, Bool.false_eq_true, if_false]
  obtain rfl := Option.some.inj (hd.symm.trans (hturn.symm.trans hb'))
  have hrem := hr.head.remembers (fun e he => hp.keeps e (List.mem_append_left _ he)) hes
  have hnew := hbooks.command hf (ready_of_unlocked hl hb) g c
  rw [← hw] at hnew
  simp only [boots, accepted?, hl, hb, hi]
  exact hnew.remembers hrem

theorem after_books {b : Bridge} (hb : (after p h).bridge = some b) :
    Books (boots p h) b.session := by
  induction h generalizing b with
  | nil => cases hb
  | cons x h ih =>
    have ha := next_advances (after_orderly p h) x
    cases hc : (after p h).bridge with
    | none =>
      obtain ⟨o, hs⟩ := ha.installed hc b hb
      rw [boots, accepted?_of_bare hc, boots_of_bare hc, hs]
      exact .new o
    | some c =>
      cases hx : (after p h).started? x with
      | none =>
        obtain ⟨b', es, hb', hr, hk, hcs⟩ := ha.led c hc
        obtain rfl := Option.some.inj (hb'.symm.trans hb)
        rw [hx] at hcs
        rw [boots, accepted?_of_idle (queue_tasks p h) hx]
        exact (ih hc).remembers (hr.remembers hk (List.filterMap_eq_nil_iff.mp hcs))
      | some y =>
        cases x with
        | turn i =>
          simp only [started?] at hx
          split at hx
          · cases hx
          · next hl =>
            obtain ⟨t, ht, hty⟩ := Option.bind_eq_some_iff.mp hx
            rw [← queue_tasks, List.getElem?_map] at ht
            obtain ⟨⟨g, t'⟩, hi, rfl⟩ := Option.map_eq_some_iff.mp ht
            cases t' with
            | command cmd w => exact turn_books hc (ih hc) (by simpa using hl) hi hb
            | _ => cases hty
        | _ => cases hx

theorem books_of_mem {a : Accepted} (ha : a ∈ boots p h) :
    ∃ b, (after p h).bridge = some b ∧ Books (boots p h) b.session := by
  cases hb : (after p h).bridge with
  | none =>
    rw [boots_of_bare hb] at ha
    cases ha
  | some b => exact ⟨b, rfl, after_books hb⟩

end Histories

end Frame

end Chip8Frame.Browser
