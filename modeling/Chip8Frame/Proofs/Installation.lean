import Chip8Frame.Proofs.Backdrop
import Chip8Frame.Proofs.Schedule

/-! The installation of the bridge in a realm that has no listeners yet. It succeeds or it undoes
whatever it did, up to the console and the numbers that closures get. -/

namespace Chip8Frame.Browser

open Host (Session)

namespace Frame

/-- Nothing changed but what the console got and the number of the next closure. -/
def Unchanged (f g : Frame) : Prop :=
  g = { f with
    realm := { f.realm with
      console := g.realm.console
      events := g.realm.events
      nextClosure := g.realm.nextClosure } }

def errorListener (closure : Nat) : Listener := { target := .window, type := "error", closure }

def keyHeard (r : Realm) : List (Listener × Handler) :=
  if (r.failure? "add_event_listener" (some "keydown")).isNone then
    [(DocumentSurface.keyListener r.nextClosure, .suppressKeys)]
  else []

def closuresOf (ls : List (Listener × Handler)) : List (Nat × Handler) :=
  ls.map fun x => (x.1.closure, x.2)

def keySurface (r : Realm) : DocumentSurface :=
  { DocumentSurface.new with keyClosure := (closuresOf (keyHeard r)).head?.map Prod.fst }

def withKeys (r : Realm) (events : List Event) : Realm :=
  { r with
    listeners := (keyHeard r).map Prod.fst
    closures := closuresOf (keyHeard r)
    nextClosure := r.nextClosure + 1
    events }

def withErrors (r : Realm) : Realm :=
  { (r.newClosure .recordError).2 with
    listeners := r.listeners ++ [errorListener r.nextClosure] }.record
      (.listen Target.window.label "error")

def heard (r : Realm) : List (Listener × Handler) :=
  keyHeard r ++ [(errorListener (r.nextClosure + 1), .recordError)]

structure Installable (f : Frame) (options : Value) : Prop where
  decodes : ∃ o, options.bridgeOptions = .ok o
  free : f.bridge = none
  document : checkDocument f.realm = .ok ()
  listens : f.realm.failure? "add_event_listener" (some "error") = none

/-- A new bridge is in place, in a realm that has its listeners and closures and no others. -/
structure Installed (f : Frame) (options : Value) (g : Frame) : Prop where
  bridge : ∃ o surface, options.bridgeOptions = .ok o ∧
    g.bridge = some { session := (Session.new o).1, surface, exitClosure := none }
  view : f.realm.SameView g.realm
  listeners : g.realm.listeners = (heard f.realm).map Prod.fst
  closures : g.realm.closures = closuresOf (heard f.realm)
  nextClosure : g.realm.nextClosure = f.realm.nextClosure + 2
  rest : g = { f with realm := g.realm, bridge := g.bridge }

section Install

variable {f : Frame} {options : Value}

theorem captureKeys_eq {r : Realm} (hl : r.listeners = []) (hc : r.closures = []) :
    ∃ events, DocumentSurface.new.captureKeys r = (keySurface r, withKeys r events) := by
  have hf : (r.newClosure .suppressKeys).2.failure? "add_event_listener" (some "keydown") =
      r.failure? "add_event_listener" (some "keydown") := rfl
  simp only [DocumentSurface.captureKeys, Browsing.listen_eq, DocumentSurface.keyListener, hf,
    keySurface, withKeys, keyHeard]
  cases r.failure? "add_event_listener" (some "keydown") with
  | none =>
    refine ⟨r.events ++ [.listen Target.body.label "keydown"], ?_⟩
    simp [Realm.newClosure, Realm.record, DocumentSurface.new, closuresOf, hl, hc]
  | some v =>
    obtain ⟨events, he⟩ := (r.newClosure .suppressKeys).2.report_eq (.keyCaptureFailed v.inDebug)
    refine ⟨events, ?_⟩
    simp only [Option.isNone_some, Bool.false_eq_true, if_false, he]
    simp [Realm.newClosure, Realm.dropClosure, DocumentSurface.new, closuresOf, hl, hc]

theorem keyHeard_fresh (r : Realm) : ∀ c ∈ closuresOf (keyHeard r), c.1 < r.nextClosure + 1 := by
  unfold keyHeard
  split <;> simp [closuresOf, DocumentSurface.keyListener]

theorem drop_captured (r s : Realm) (hl : s.listeners = (keyHeard r).map Prod.fst)
    (hc : s.closures = closuresOf (keyHeard r)) :
    ∃ events, (keySurface r).drop s = { s with listeners := [], closures := [], events } := by
  unfold keySurface
  unfold keyHeard at hl hc ⊢
  split at hl
  · next hk =>
    simp only [hk, if_true] at hc ⊢
    refine ⟨s.events ++ [.unlisten Target.body.label "keydown"], ?_⟩
    simp [DocumentSurface.drop, DocumentSurface.keyListener, Realm.unlisten, Realm.record,
      Realm.dropClosure, closuresOf, hl, hc]
  · next hk =>
    simp only [hk, Bool.false_eq_true, if_false] at hc ⊢
    have hl' : s.listeners = [] := hl
    have hc' : s.closures = [] := hc
    refine ⟨s.events, ?_⟩
    simp only [DocumentSurface.drop, closuresOf, List.map_nil, List.head?_nil, Option.map_none]
    rw [← hl', ← hc']

theorem dropClosure_newClosure {r : Realm} (h : ∀ c ∈ r.closures, c.1 < r.nextClosure)
    (a : Handler) :
    (r.newClosure a).2.dropClosure r.nextClosure =
      { r with nextClosure := r.nextClosure + 1 } := by
  have hf : r.closures.filter (fun c => decide (c.1 ≠ r.nextClosure)) = r.closures :=
    List.filter_eq_self.mpr fun c hm => decide_eq_true (Nat.ne_of_lt (h c hm))
  have hs : (r.closures ++ [(r.nextClosure, a)]).filter (fun c => decide (c.1 ≠ r.nextClosure)) =
      r.closures := by
    rw [List.filter_append, hf]
    simp
  show { r with nextClosure := _, closures := List.filter _ _ } = _
  rw [← hs]
  rfl

theorem Unchanged.refl (f : Frame) : f.Unchanged f := rfl

theorem Unchanged.of_realm {r : Realm} (h : r = { f.realm with
    console := r.console, events := r.events, nextClosure := r.nextClosure }) :
    f.Unchanged { f with realm := r } := by
  unfold Unchanged
  rw [← h]

theorem install_eq {o : Boot.Options} (ho : options.bridgeOptions = .ok o)
    (hb : f.bridge = none) (hd : checkDocument f.realm = .ok ()) {s : DocumentSurface} {r : Realm}
    (hcap : DocumentSurface.new.captureKeys (f.realm.openConsole o.maxLevel) = (s, r))
    (hf : r.failures = f.realm.failures) :
    f.install options =
      match f.realm.failure? "add_event_listener" (some "error") with
      | some v => (.error (.script v), { f with
          realm := s.drop ((r.newClosure .recordError).2.dropClosure r.nextClosure) })
      | none => (.ok (), { f with
          realm := (withErrors r).report .installed
          bridge := some
            { session := (Session.new o).1, surface := s, exitClosure := none } }) := by
  have hd' : checkDocument (f.realm.openConsole o.maxLevel) = .ok () := hd
  have heff : (Session.new o).2 = [.surface .captureKeys] := rfl
  have hn : f.bridge.isSome = false := by rw [hb]; rfl
  have hfail : (r.newClosure .recordError).2.failure? "add_event_listener" (some "error") =
      f.realm.failure? "add_event_listener" (some "error") := by
    simp only [Realm.failure?, Realm.newClosure, hf]
  simp only [install, ho, hn, hd', heff, DocumentSurface.apply_surface, DocumentSurface.apply_nil,
    DocumentSurface.perform, Browsing.listen_eq, Bool.false_eq_true, if_false, hcap, hfail]
  cases f.realm.failure? "add_event_listener" (some "error") <;> rfl

/-- Without the error listener, the surface goes and takes the key listener with it. -/
theorem install_undone {o : Boot.Options} (ho : options.bridgeOptions = .ok o)
    (hb : f.bridge = none) (hd : checkDocument f.realm = .ok ()) (hl : f.realm.listeners = [])
    (hc : f.realm.closures = []) {v : Value}
    (hx : f.realm.failure? "add_event_listener" (some "error") = some v) :
    ∃ g, f.install options = (.error (.script v), g) ∧ f.Unchanged g := by
  obtain ⟨events, he⟩ := captureKeys_eq (r := f.realm.openConsole o.maxLevel) hl hc
  have hi := install_eq ho hb hd he rfl
  rw [hx] at hi
  refine ⟨_, hi, ?_⟩
  have hn := dropClosure_newClosure (r := withKeys (f.realm.openConsole o.maxLevel) events)
    (keyHeard_fresh f.realm) .recordError
  obtain ⟨events', hg⟩ := drop_captured (f.realm.openConsole o.maxLevel)
    { withKeys (f.realm.openConsole o.maxLevel) events with
      nextClosure := (withKeys (f.realm.openConsole o.maxLevel) events).nextClosure + 1 } rfl rfl
  rw [hn]
  refine Unchanged.of_realm ?_
  rw [hg]
  simp [withKeys, Realm.openConsole, hl, hc]

theorem install_succeeds (hl : f.realm.listeners = []) (hc : f.realm.closures = [])
    (h : f.Installable options) :
    ∃ g, f.install options = (.ok (), g) ∧ f.Installed options g := by
  obtain ⟨⟨o, ho⟩, hb, hd, hx⟩ := h
  obtain ⟨events, he⟩ := captureKeys_eq (r := f.realm.openConsole o.maxLevel) hl hc
  have hi := install_eq ho hb hd he rfl
  rw [hx] at hi
  refine ⟨_, hi, ?_⟩
  have hk := Realm.Kept.report
    (withErrors (withKeys (f.realm.openConsole o.maxLevel) events)) .installed
  have hkeys : heard f.realm = keyHeard (f.realm.openConsole o.maxLevel) ++
      [(errorListener (f.realm.nextClosure + 1), .recordError)] := rfl
  refine ⟨⟨o, _, ho, rfl⟩, ?_, ?_, ?_, hk.nextClosure, rfl⟩
  · have hv : f.realm.SameView (withErrors (withKeys (f.realm.openConsole o.maxLevel) events)) :=
      ⟨rfl, rfl, rfl, rfl⟩
    exact hv.trans hk.toSameView
  · refine hk.listeners.trans ?_
    rw [hkeys, List.map_append]
    rfl
  · refine hk.closures.trans ?_
    rw [hkeys, closuresOf, List.map_append]
    rfl

theorem install_fails (hbare : f.bridge = none → f.realm.listeners = [] ∧ f.realm.closures = [])
    (h : ¬ f.Installable options) :
    ∃ e g, f.install options = (.error e, g) ∧ f.Unchanged g := by
  cases ho : options.bridgeOptions with
  | error e =>
    simp only [install, ho]
    exact ⟨_, _, rfl, .refl f⟩
  | ok o =>
    cases hb : f.bridge with
    | some b =>
      have hs : f.bridge.isSome = true := by rw [hb]; rfl
      simp only [install, ho, hs, if_true]
      exact ⟨_, _, rfl, .of_realm rfl⟩
    | none =>
      cases hd : checkDocument f.realm with
      | error e =>
        have hd' : checkDocument (f.realm.openConsole o.maxLevel) = .error e := hd
        have hn : f.bridge.isSome = false := by rw [hb]; rfl
        simp only [install, ho, hn, hd', Bool.false_eq_true, if_false]
        exact ⟨_, _, rfl, .of_realm rfl⟩
      | ok u =>
        obtain ⟨hl, hc⟩ := hbare hb
        cases hx : f.realm.failure? "add_event_listener" (some "error") with
        | some v => exact ⟨_, install_undone ho hb hd hl hc hx⟩
        | none => exact absurd ⟨⟨o, ho⟩, hb, hd, hx⟩ h

theorem install_kept (hb : f.bridge ≠ none) (options : Value) :
    ∃ e r, Realm.Kept f.realm r ∧ f.install options = (.error e, { f with realm := r }) := by
  have hs : f.bridge.isSome = true := Option.isSome_iff_ne_none.mpr hb
  unfold install
  cases options.bridgeOptions with
  | error e => exact ⟨_, f.realm, .refl _, rfl⟩
  | ok o =>
    simp only [hs, if_true]
    exact ⟨_, _, .openConsole _ _, rfl⟩

theorem install_twice (hb : f.bridge ≠ none) {o : Boot.Options}
    (ho : options.bridgeOptions = .ok o) : (f.install options).1 = .error .alreadyInstalled := by
  have hs : f.bridge.isSome = true := Option.isSome_iff_ne_none.mpr hb
  simp only [install, ho, hs, if_true]

end Install

end Frame

end Chip8Frame.Browser
