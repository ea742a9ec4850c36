import Chip8Frame.Proofs.Orderly

/-! Entry calls that fail. A call that fails in its installation leaves nothing behind, and a later
one in a working browser succeeds. A call that fails after its installation leaves the bridge and
its listeners, and from then on no call succeeds in this realm. -/

namespace Chip8Frame.Browser

inductive Entry where
  | boot
  | listen

def Entry.happening (options : Value) : Entry → Frame.Happening
  | boot => .boot options
  | listen => .listen options

structure Realm.Working (r : Realm) : Prop where
  window : r.hasWindow = true
  document : r.hasDocument = true
  body : r.body.isSome = true
  frame : r.frame.isSome = true
  failures : r.failures = []

namespace Frame

def enter (f : Frame) (options : Value) : Entry → Except Value Unit × Frame
  | .boot => f.bootFromAttributes options
  | .listen => f.listenForMessages options

/-- What a call still needs once the bridge is installed. -/
def Completes (f : Frame) : Entry → Prop
  | .boot => ∃ n, (Browsing.frameElement f.realm).1 = .ok (some n)
  | .listen => f.realm.failure? "add_event_listener" (some "message") = none

/-- A frame with a bridge that its entry call failed to use. -/
structure Stranded (f g : Frame) : Prop where
  free : f.bridge = none
  unheard : f.realm.listeners = []
  bridge : g.bridge ≠ none
  listeners : g.realm.listeners = (heard f.realm).map Prod.fst

structure FailedEntry (p : Opening) (h : List Happening) (options : Value) (x : Entry) :
    Prop where
  /-- Nothing is left behind exactly if the installation itself fails. -/
  undone : (after p h).Unchanged (after p (x.happening options :: h)) ↔
    ¬ (after p h).Installable options
  /-- Then a bridge can still be installed if there was none. -/
  retried : ¬ (after p h).Installable options → (after p h).bridge = none →
    ∀ page : Realm, page.Working → ∀ y o, (∃ decoded, o.bridgeOptions = .ok decoded) →
      ((after p (.change page :: x.happening options :: h)).enter o y).1 = .ok () ∧
        (after p (y.happening o :: .change page :: x.happening options :: h)).bridge ≠ none
  stranded : (after p h).Installable options →
    (after p h).Stranded (after p (x.happening options :: h))
  /-- Whatever comes next, no later call succeeds. -/
  shut : (after p h).Installable options → ∀ later y o,
    ∃ e, ((after p (later ++ x.happening options :: h)).enter o y).1 = .error e ∧
      ((∃ decoded, o.bridgeOptions = .ok decoded) → e = EntryError.alreadyInstalled.thrown)

section Calls

variable {f g : Frame} {options : Value}

theorem next_happening (f : Frame) (options : Value) (x : Entry) :
    f.next (x.happening options) = (f.enter options x).2 := by
  cases x <;> rfl

theorem enter_of_failed {e : EntryError} (he : f.install options = (.error e, g)) (x : Entry) :
    f.enter options x = (.error e.thrown, g) := by
  cases x with
  | boot => simp only [enter, bootFromAttributes, he]
  | listen => simp only [enter, listenForMessages, he]

theorem enter_refused (ho : f.Orderly) (hi : ¬ f.Installable options) (x : Entry) :
    f.Unchanged (f.enter options x).2 := by
  obtain ⟨e, g, he, hu⟩ := ho.install_fails hi
  rw [enter_of_failed he]
  exact hu

theorem enter_again (hb : f.bridge ≠ none) (x : Entry) :
    ∃ e, (f.enter options x).1 = .error e ∧
      ((∃ o, options.bridgeOptions = .ok o) → e = EntryError.alreadyInstalled.thrown) := by
  obtain ⟨e, r, -, he⟩ := install_kept hb options
  refine ⟨e.thrown, by rw [enter_of_failed he], ?_⟩
  rintro ⟨o, hd⟩
  have ht := install_twice hb hd
  rw [he] at ht
  rw [Except.error.inj ht]

/-- Once the bridge is installed, a call fails where it cannot go on, and undoes nothing. -/
theorem enter_installed (ho : f.Orderly) (hi : f.Installable options) (x : Entry) :
    ∃ g, f.Installed options g ∧ (f.enter options x).2.bridge = g.bridge ∧
      ((f.enter options x).1 = .ok () ↔ f.Completes x) ∧
      ((f.enter options x).1 = .ok () ∨
        (f.enter options x).2.realm.listeners = g.realm.listeners) := by
  obtain ⟨g, hr, hg, -⟩ := ho.install_succeeds hi
  refine ⟨g, hg, ?_⟩
  cases x with
  | boot =>
    simp only [enter, bootFromAttributes, hr, Completes, ← hg.view.frameElement]
    cases (Browsing.frameElement g.realm).1 with
    | error v => simp
    | ok n => cases n <;> simp [dispatch, spawn]
  | listen =>
    have hf : (g.realm.newClosure .bootMessage).2.failure? "add_event_listener" (some "message") =
        f.realm.failure? "add_event_listener" (some "message") := hg.view.failure? _ _
    simp only [enter, listenForMessages, hr, Completes, Browsing.listen_eq, hf]
    cases f.realm.failure? "add_event_listener" (some "message") with
    | some v => exact ⟨rfl, by simp, .inr rfl⟩
    | none => simp

end Calls

section Later

variable {p : Opening} {h : List Happening} {options : Value} {x : Entry}

theorem bridge_stays (hb : (after p h).bridge ≠ none) (later : List Happening) :
    (after p (later ++ h)).bridge ≠ none := by
  induction later with
  | nil => exact hb
  | cons x later ih => exact fun hn => ih ((next_advances (after_orderly p _) x).bare hn)

theorem enter_working (hb : (after p h).bridge = none) {page : Realm} (hw : page.Working)
    (ho : ∃ o, options.bridgeOptions = .ok o) (x : Entry) :
    ((after p (.change page :: h)).enter options x).1 = .ok () ∧
      (after p (x.happening options :: .change page :: h)).bridge ≠ none := by
  have hf : ∀ call argument, (after p (.change page :: h)).realm.failure? call argument = none :=
    fun call argument => by
      cases argument <;> simp [after_cons, next, Realm.changed, Realm.failure?, hw.failures]
  have hd : checkDocument (after p (.change page :: h)).realm = .ok () := by
    simp [after_cons, next, Realm.changed, checkDocument, hw.window, hw.document,
      ← Option.not_isSome, hw.body]
  have hi : (after p (.change page :: h)).Installable options := ⟨ho, hb, hd, hf _ _⟩
  obtain ⟨g, hg, hgb, hok, -⟩ := enter_installed (after_orderly p (.change page :: h)) hi x
  obtain ⟨b, hb'⟩ := hg.bridge_isSome
  rw [after_cons p (x.happening options), next_happening, hgb, hb']
  refine ⟨hok.mpr ?_, Option.some_ne_none b⟩
  cases x with
  | boot =>
    obtain ⟨e, he⟩ := Option.isSome_iff_exists.mp hw.frame
    have hfr : (after p (.change page :: h)).realm.frame = some e := he
    exact ⟨e.node, by rw [Browsing.frameElement_fst, hf, hfr]; rfl⟩
  | listen => exact hf _ _

theorem Stranded.changed {f g : Frame} (hs : f.Stranded g) : ¬ f.Unchanged g := by
  intro hu
  refine hs.bridge ?_
  rw [Unchanged] at hu
  rw [hu]
  exact hs.free

theorem stranded_of_error {v : Value} (hv : ((after p h).enter options x).1 = .error v)
    (hi : (after p h).Installable options) :
    (after p h).Stranded (after p (x.happening options :: h)) := by
  obtain ⟨g, hg, hb, -, hl⟩ := enter_installed (after_orderly p h) hi x
  obtain ⟨b, hb'⟩ := hg.bridge_isSome
  rw [after_cons, next_happening]
  refine ⟨hi.free, ((after_orderly p h).bare hi.free).2.1, ?_, ?_⟩
  · rw [hb, hb']
    exact Option.some_ne_none b
  · rcases hl with hok | hl
    · rw [hv] at hok
      cases hok
    · exact hl.trans hg.listeners

theorem failed_entry {v : Value} (hv : ((after p h).enter options x).1 = .error v) :
    FailedEntry p h options x where
  undone := by
    constructor
    · intro hu hi
      exact (stranded_of_error hv hi).changed hu
    · intro hi
      rw [after_cons, next_happening]
      exact enter_refused (after_orderly p h) hi x
  retried hi hb page hw y o ho := by
    have hu := enter_refused (after_orderly p h) hi x
    refine enter_working ?_ hw ho y
    rw [after_cons, next_happening]
    rw [Unchanged] at hu
    rw [hu]
    exact hb
  stranded hi := stranded_of_error hv hi
  shut hi later y o :=
    enter_again (bridge_stays (stranded_of_error hv hi).bridge later) y

def Sample.unframed : Opening :=
  { realm := { Realm.empty with body := some (.mk (Node.new 0 "body") []) }
    runtime := .scripted
    scripts := []
    unheard := rfl
    unclosed := rfl }

theorem unframed_installable : (after Sample.unframed []).Installable .undefined :=
  ⟨⟨_, rfl⟩, rfl, rfl, rfl⟩

theorem unframed_boot_fails :
    ((after Sample.unframed []).enter .undefined .boot).1 =
      .error (EntryError.missing "frameElement").thrown := rfl

theorem failed_entry_unframed :
    ((after Sample.unframed []).enter .undefined .boot).1 =
        .error (EntryError.missing "frameElement").thrown ∧
      FailedEntry Sample.unframed [] .undefined .boot ∧
        ∀ later y, ((after Sample.unframed (later ++ [.boot .undefined])).enter .undefined y).1 =
          .error EntryError.alreadyInstalled.thrown := by
  have hf := failed_entry unframed_boot_fails
  refine ⟨unframed_boot_fails, hf, fun later y => ?_⟩
  obtain ⟨e, he, hd⟩ := hf.shut unframed_installable later y .undefined
  obtain rfl := hd ⟨_, rfl⟩
  exact he

/-- A call can return an error and yet leave its bridge and its listeners behind. -/
theorem failed_entry_not_undone :
    ¬ ∀ p h options x v, ((after p h).enter options x).1 = .error v →
      (after p (x.happening options :: h)).bridge = (after p h).bridge ∧
        (after p (x.happening options :: h)).realm.listeners = (after p h).realm.listeners := by
  intro hn
  obtain ⟨hb, -⟩ := hn Sample.unframed [] .undefined .boot _ unframed_boot_fails
  have hs := stranded_of_error unframed_boot_fails unframed_installable
  exact hs.bridge (hb.trans hs.free)

end Later

end Frame

end Chip8Frame.Browser
