import Chip8Frame.Proofs.FailedEntry
import Chip8Frame.Proofs.Lock

/-! One bridge in a realm. The first installation that succeeds fills the slot for good: every
later entry call finds the bridge, fails, and leaves all of the frame as it was. The page carries
the listeners of this one bridge and never two of a kind. -/

namespace Chip8Frame.Browser

open Host (Session)

namespace Frame

def messageListener (closure : Nat) : Listener := { target := .window, type := "message", closure }

def installs? (f : Frame) : Happening → Option Value
  | .boot options | .listen options => if (f.install options).1.isOk then some options else none
  | _ => none

/-- The options of every installation, newest first. -/
def installations (p : Opening) : List Happening → List Value
  | [] => []
  | x :: h => ((after p h).installs? x).toList ++ installations p h

/-- Why an entry call fails that finds a bridge. -/
def refusal (options : Value) : EntryError :=
  match options.bridgeOptions with
  | .error e => .options (Value.decodeErrorText e)
  | .ok _ => .alreadyInstalled

structure SoleBridge (p : Opening) (h : List Happening) : Prop where
  /-- There is a bridge exactly if one was installed, and no other one ever was. -/
  once : (installations p h).length = (after p h).bridge.isSome.toNat
  /-- Its session began with that installation and lost no context since. -/
  first : ∀ b, (after p h).bridge = some b → ∃ options o es, installations p h = [options] ∧
    options.bridgeOptions = .ok o ∧ Session.Possible o es ∧ Session.after o es = b.session ∧
      ∀ e ∈ es, e.keeps = true
  lasting : (after p h).bridge ≠ none → ∀ later, (after p (later ++ h)).bridge ≠ none ∧
    installations p (later ++ h) = installations p h
  /-- A console may open late; nothing else is touched. -/
  refused : (after p h).bridge ≠ none → ∀ options x,
    ((after p h).enter options x).1 = .error (refusal options).thrown ∧
      (∃ console, ((after p h).enter options x).2 =
        { after p h with realm := { (after p h).realm with console } }) ∧
      ((after p h).realm.console ≠ none → ((after p h).enter options x).2 = after p h)
  missing : (after p h).restart.1 = .error EntryError.notInstalled.thrown ↔
    (after p h).bridge = none
  restarts : (after p h).bridge ≠ none → (after p h).realm.hasWindow = true →
    (after p h).restart.1 = .ok ()
  listeners : ∀ target type, ((after p h).realm.listenersFor target type).length ≤ 1
  unheard : (after p h).bridge = none → (after p h).realm.listeners = []

section Calls

variable {f g : Frame} {options : Value}

theorem install_isOk_iff (ho : f.Orderly) :
    (f.install options).1.isOk = true ↔ f.Installable options := by
  by_cases hi : f.Installable options
  · obtain ⟨g, he, -⟩ := ho.install_succeeds hi
    rw [he]
    exact iff_of_true rfl hi
  · obtain ⟨e, g, he, -⟩ := ho.install_fails hi
    rw [he]
    exact iff_of_false Bool.false_ne_true hi

theorem installs?_of_bridge (hb : f.bridge ≠ none) (x : Happening) : f.installs? x = none := by
  have hn : ∀ options, (f.install options).1.isOk = false := fun options => by
    obtain ⟨e, r, -, he⟩ := install_kept hb options
    rw [he]
    rfl
  cases x <;> simp [installs?, hn]

theorem bare_of_installs? (ho : f.Orderly) (hb : f.bridge = none) {x : Happening}
    (hx : f.installs? x = none) : (f.next x).bridge = none := by
  have hentry : ∀ options (y : Entry), (f.install options).1.isOk = false →
      (f.next (y.happening options)).bridge = none := by
    intro options y hn
    have hi : ¬ f.Installable options := by
      rw [← install_isOk_iff ho, hn]
      exact Bool.false_ne_true
    have hu := enter_refused ho hi y
    rw [next_happening]
    unfold Unchanged at hu
    rw [hu]
    exact hb
  cases x with
  | boot options => exact hentry options .boot (by simpa [installs?] using hx)
  | listen options => exact hentry options .listen (by simpa [installs?] using hx)
  | restart => simp [next, restart, hb]
  | turn i =>
    have hi : f.tasks[i]? = none := by simp [(ho.bare hb).1]
    simp [next, turn, hi, hb]
  | load guest outcome => exact hb
  | runDone guest outcome =>
    simp only [next, settleRun]
    split <;> exact hb
  | act a =>
    obtain ⟨r, -, he⟩ := act_bare ho hb a
    simp [next, he, hb]
  | change page => exact hb

theorem installed_of_installs? (ho : f.Orderly) {x : Happening} (hx : f.installs? x = some options) :
    ∃ (y : Entry) (o : Boot.Options) (b : Bridge), x = y.happening options ∧
      f.Installable options ∧ options.bridgeOptions = .ok o ∧
        (f.next x).bridge = some b ∧ b.session = (Session.new o).1 := by
  have hentry : ∀ y : Entry, (f.install options).1.isOk = true →
      ∃ (o : Boot.Options) (b : Bridge), f.Installable options ∧ options.bridgeOptions = .ok o ∧
        (f.next (y.happening options)).bridge = some b ∧ b.session = (Session.new o).1 := by
    intro y hok
    have hi := (install_isOk_iff ho).mp hok
    obtain ⟨g, hg, hb, -⟩ := enter_installed ho hi y
    obtain ⟨o, surface, hd, hgb⟩ := hg.bridge
    rw [next_happening, hb, hgb]
    exact ⟨o, _, hi, hd, rfl, rfl⟩
  cases x with
  | boot v =>
    obtain ⟨hok, rfl⟩ : (f.install v).1.isOk = true ∧ v = options := by
      simpa [installs?] using hx
    obtain ⟨o, b, h⟩ := hentry .boot hok
    exact ⟨.boot, o, b, rfl, h⟩
  | listen v =>
    obtain ⟨hok, rfl⟩ : (f.install v).1.isOk = true ∧ v = options := by
      simpa [installs?] using hx
    obtain ⟨o, b, h⟩ := hentry .listen hok
    exact ⟨.listen, o, b, rfl, h⟩
  | _ => cases hx

theorem install_refused (hb : f.bridge ≠ none) (options : Value) :
    ∃ console, f.install options =
        (.error (refusal options), { f with realm := { f.realm with console } }) ∧
      (f.realm.console ≠ none → console = f.realm.console) := by
  have hs : f.bridge.isSome = true := Option.isSome_iff_ne_none.mpr hb
  simp only [install, refusal]
  cases options.bridgeOptions with
  | error e => exact ⟨f.realm.console, rfl, fun _ => rfl⟩
  | ok o =>
    simp only [hs, if_true]
    refine ⟨f.realm.console.or (some o.maxLevel), rfl, fun hc => ?_⟩
    obtain ⟨t, ht⟩ := Option.ne_none_iff_exists'.mp hc
    rw [ht, Option.some_or]

theorem enter_untouched (hb : f.bridge ≠ none) (options : Value) (x : Entry) :
    (f.enter options x).1 = .error (refusal options).thrown ∧
      (∃ console, (f.enter options x).2 = { f with realm := { f.realm with console } }) ∧
      (f.realm.console ≠ none → (f.enter options x).2 = f) := by
  obtain ⟨console, he, hc⟩ := install_refused hb options
  rw [enter_of_failed he]
  refine ⟨rfl, ⟨console, rfl⟩, fun hn => ?_⟩
  rw [hc hn]

theorem restart_missing_iff :
    f.restart.1 = .error EntryError.notInstalled.thrown ↔ f.bridge = none := by
  cases hb : f.bridge with
  | none => simp [restart, hb]
  | some b =>
    simp only [restart, hb, Option.isNone_some, Bool.false_eq_true, if_false, reduceCtorEq,
      iff_false]
    split
    · intro hn
      have hx := Value.error.inj (Except.error.inj hn)
      revert hx
      decide
    · intro hn
      cases hn

end Calls

/-! Listeners. -/

section Listeners

variable {f : Frame}

theorem turn_steady (ho : f.Orderly) (i : Nat) : f.realm.Steady (f.turn i).realm := by
  cases hi : f.tasks[i]? with
  | none =>
    rw [turn_of_none hi]
    exact .refl _
  | some t =>
    rw [turn_of_some hi, leave_realm]
    have hmem : t ∈ f.tasks := List.mem_of_getElem? hi
    obtain ⟨b, hb⟩ := ho.bridge_of_mem hmem
    rcases ho.idle_or_polled hmem with hidle | ⟨hlock, hw⟩
    · obtain ⟨r, hr, he⟩ := hidle.polled
      rw [he]
      exact hr.toSteady
    · obtain ⟨es, -, hp⟩ := pollTask_polled ho.tidy hb (ho.shown b hb) hlock (ho.served t hmem)
        (fun ht => ho.grounded (hlock.trans ht) b hb) hw
      exact hp.steady

theorem next_listeners (ho : f.Orderly) (hb : f.bridge ≠ none) (x : Happening) :
    (f.next x).realm.listeners = f.realm.listeners := by
  have hentry : ∀ options (y : Entry),
      (f.next (y.happening options)).realm.listeners = f.realm.listeners := by
    intro options y
    obtain ⟨-, ⟨console, he⟩, -⟩ := enter_untouched hb options y
    rw [next_happening, he]
  cases x with
  | boot options => exact hentry options .boot
  | listen options => exact hentry options .listen
  | restart =>
    simp only [next, restart]
    split
    · rfl
    · split <;> rfl
  | turn i => exact (turn_steady ho i).listeners
  | load guest outcome => rfl
  | runDone guest outcome =>
    simp only [next, settleRun]
    split <;> rfl
  | act a => exact (act_goes ho.tidy none a).drifts.steady.listeners
  | change page => rfl

/-- Of each kind that a bridge has, one listener or none. -/
def Single (ls : List Listener) : Prop :=
  ∃ k e m, ls.Sublist [DocumentSurface.keyListener k, errorListener e, messageListener m]

theorem Single.length_le {ls : List Listener} (h : Single ls) (target : Target) (type : String) :
    (ls.filter fun l => decide (l.target = target ∧ l.type = type)).length ≤ 1 := by
  obtain ⟨k, e, m, hs⟩ := h
  refine Nat.le_trans (hs.filter _).length_le ?_
  cases target with
  | body =>
    simp only [DocumentSurface.keyListener, errorListener, messageListener, List.filter_cons]
    by_cases ht : "keydown" = type <;> simp [ht]
  | window =>
    simp only [DocumentSurface.keyListener, errorListener, messageListener, List.filter_cons]
    by_cases ht : "error" = type
    · subst ht
      simp
    · by_cases hm : "message" = type <;> simp [ht, hm]

/-- The listeners of a new bridge; one for messages comes last, if it could be added. -/
theorem enter_single (ho : f.Orderly) {options : Value} (hi : f.Installable options) (x : Entry) :
    Single (f.enter options x).2.realm.listeners := by
  have hheard : ∀ m, ((heard f.realm).map Prod.fst ++ [messageListener m]).Sublist
      [DocumentSurface.keyListener f.realm.nextClosure, errorListener (f.realm.nextClosure + 1),
        messageListener m] := by
    intro m
    simp only [heard, keyHeard]
    split
    · exact .refl _
    · exact List.sublist_cons_self _ _
  obtain ⟨g, hr, hg, -⟩ := ho.install_succeeds hi
  refine ⟨f.realm.nextClosure, f.realm.nextClosure + 1, g.realm.nextClosure, ?_⟩
  refine List.Sublist.trans ?_ (hheard g.realm.nextClosure)
  rw [← hg.listeners]
  cases x with
  | boot =>
    simp only [enter, bootFromAttributes, hr]
    split <;> exact List.sublist_append_left _ _
  | listen =>
    simp only [enter, listenForMessages, hr, Browsing.listen_eq]
    split
    · next he =>
      split at he
      · obtain ⟨-, rfl⟩ := Prod.mk.inj he
        exact List.sublist_append_left _ _
      · cases he
    · next he =>
      split at he
      · cases he
      · obtain ⟨-, rfl⟩ := Prod.mk.inj he
        exact .refl _

end Listeners

section Law

variable {p : Opening} {h : List Happening}

theorem installations_of_bare (hb : (after p h).bridge = none) : installations p h = [] := by
  induction h with
  | nil => rfl
  | cons x h ih =>
    have ho := after_orderly p h
    have hb' := (next_advances ho x).bare hb
    cases hx : (after p h).installs? x with
    | none => simp [installations, hx, ih hb']
    | some options =>
      obtain ⟨-, -, b, -, -, -, hn, -⟩ := installed_of_installs? ho hx
      exact absurd (hn.symm.trans hb) (Option.some_ne_none b)

theorem installations_of_bridge {b : Bridge} (hb : (after p h).bridge = some b) :
    ∃ options o es, installations p h = [options] ∧ options.bridgeOptions = .ok o ∧
      Session.Possible o es ∧ Session.after o es = b.session ∧ ∀ e ∈ es, e.keeps = true := by
  induction h generalizing b with
  | nil => cases hb
  | cons x h ih =>
    have ho := after_orderly p h
    cases hc : (after p h).bridge with
    | none =>
      cases hx : (after p h).installs? x with
      | none => exact absurd (hb.symm.trans (bare_of_installs? ho hc hx)) (Option.some_ne_none b)
      | some options =>
        obtain ⟨y, o, b', -, -, hd, hn, hs⟩ := installed_of_installs? ho hx
        obtain rfl := Option.some.inj (hn.symm.trans hb)
        refine ⟨options, o, [], ?_, hd, trivial, hs.symm, by simp⟩
        simp [installations, hx, installations_of_bare hc]
    | some c =>
      obtain ⟨options, o, es, hi, hd, hp, he, hk⟩ := ih hc
      obtain ⟨b', fs, hb', hr, hks, -⟩ := (next_advances ho x).led c hc
      obtain rfl := Option.some.inj (hb'.symm.trans hb)
      have hnone := installs?_of_bridge (f := after p h) (by simp [hc]) x
      rw [← he] at hr
      obtain ⟨hp', he'⟩ := hr.possible hp
      refine ⟨options, o, fs ++ es, by simp [installations, hnone, hi], hd, hp', he', ?_⟩
      intro e hm
      rcases List.mem_append.mp hm with hm | hm
      · exact hks e hm
      · exact hk e hm

theorem installations_later (hb : (after p h).bridge ≠ none) (later : List Happening) :
    installations p (later ++ h) = installations p h := by
  induction later with
  | nil => rfl
  | cons x later ih =>
    have hn := installs?_of_bridge (bridge_stays hb later) x
    rw [List.cons_append, installations, hn, ih]
    rfl

theorem after_single (p : Opening) (h : List Happening) :
    Single (after p h).realm.listeners := by
  induction h with
  | nil => exact ⟨0, 0, 0, by rw [show (after p []).realm.listeners = [] from p.unheard]; simp⟩
  | cons x h ih =>
    have ho := after_orderly p h
    rw [after_cons]
    cases hb : (after p h).bridge with
    | some b =>
      rw [next_listeners ho (by simp [hb]) x]
      exact ih
    | none =>
      cases hx : (after p h).installs? x with
      | none =>
        have hbare := ((next_advances ho x).orderly.bare (bare_of_installs? ho hb hx)).2.1
        rw [hbare]
        exact ⟨0, 0, 0, List.nil_sublist _⟩
      | some options =>
        obtain ⟨y, -, -, rfl, hi, -⟩ := installed_of_installs? ho hx
        rw [next_happening]
        exact enter_single ho hi y

theorem sole_bridge (p : Opening) (h : List Happening) : SoleBridge p h where
  once := by
    cases hb : (after p h).bridge with
    | none => rw [installations_of_bare hb]; rfl
    | some b =>
      obtain ⟨options, o, es, hi, -⟩ := installations_of_bridge hb
      rw [hi]
      rfl
  first _ hb := installations_of_bridge hb
  lasting hb later := ⟨bridge_stays hb later, installations_later hb later⟩
  refused hb options x := enter_untouched hb options x
  missing := restart_missing_iff
  restarts hb hw := by
    have hn : (after p h).bridge.isNone = false := by
      rw [Option.isNone_eq_false_iff]
      exact Option.isSome_iff_ne_none.mpr hb
    simp [restart, hn, hw]
  listeners target type := (after_single p h).length_le target type
  unheard hb := ((after_orderly p h).bare hb).2.1

end Law

end Frame

end Chip8Frame.Browser
