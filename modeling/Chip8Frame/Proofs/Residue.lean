import Chip8Frame.Proofs.Depicted
import Chip8Frame.Proofs.Lifecycle

/-! What a hard reset leaves in a document. The surface of the old context goes and takes its key
listener along, but nothing that it mounted: whatever the old context showed stays in the document,
under a new context that knows of nothing mounted and so never removes it. -/

namespace Chip8Frame

open Surface (Headless Ledger Manager Operation)

theorem Surface.Headless.replay_eq_drive (b : Headless) (es : List Effect) :
    b.replay es = Manager.drive Headless.perform b es := by
  induction es generalizing b with
  | nil => rfl
  | cons e es ih => cases e <;> exact ih _

namespace Host

/-- The surface calls among the effects come in turn, and lead from one bookkeeping to the other. -/
def Context.InTurn (h : Context) (es : List Effect) (h' : Context) : Prop :=
  h.surfaces.ledger.replay (Surface.calls es) = some h'.surfaces.ledger

namespace Context.InTurn

variable (h : Context)

theorem silent {es : List Effect} {h' : Context} (he : Surface.calls es = [])
    (hs : h'.surfaces = h.surfaces) : h.InTurn es h' := by
  rw [InTurn, he, hs]
  rfl

theorem beginBoot (c : Boot.Config) : h.InTurn (h.beginBoot c).2 (h.beginBoot c).1 := by
  have hclear : h.surfaces.ledger.replay (Surface.calls h.surfaces.clear.effects) =
      some h.surfaces.clear.manager.ledger := h.surfaces.change_ledger .clear
  have hremove := h.surfaces.clear.manager.change_ledger .removeBanner
  show h.surfaces.ledger.replay (Surface.calls (h.surfaces.clear.effects ++
    h.surfaces.clear.manager.removeBanner.effects)) = _
  rw [Surface.calls_append, Ledger.replay_append, hclear]
  exact hremove

theorem exited (run : Nat) (c : Boot.Config) (code : Int32) :
    h.InTurn (h.exited run c code).2.1 (h.exited run c code).1 := by
  unfold Context.exited
  split
  · exact silent h rfl rfl
  · exact h.surfaces.change_ledger (.renderFault _)

end Context.InTurn

namespace Session

variable {s : Session} {e : Event} {t : Turn}

theorem Step.inTurn (hs : Step s e t) (hr : e ≠ .hardReset) :
    s.context.InTurn t.effects t.session.context := by
  cases hs with
  | bannerShown => exact s.context.surfaces.change_ledger (.showBanner _)
  | accepted => exact .beginBoot _ _
  | launched => exact s.context.surfaces.change_ledger (.createDisplay _)
  | startFailed => exact s.context.surfaces.change_ledger .clear
  | exited => exact .exited _ _ _ _
  | recorded | recordedLate => exact .silent _ (Surface.calls_eq_nil (Latch.record_silent _ _)) rfl
  | reset => exact absurd rfl hr
  | _ => exact .silent _ rfl rfl

end Session

end Host

namespace Browser

open Host (Session Context)
open DocumentSurface

/-- A hosting context over the surface of a document. -/
structure Hosted where
  session : Session
  surface : DocumentSurface
  realm : Realm

namespace Hosted

def made (session : Session) (effects : List Effect) (r : Realm) : Hosted :=
  let (surface, realm) := DocumentSurface.new.apply effects r
  { session, surface, realm }

def next (h : Hosted) (e : Session.Event) : Hosted :=
  let t := h.session.next e
  let (surface, realm) := h.surface.apply t.effects h.realm
  { session := t.session, surface, realm }

def cleared (h : Hosted) : Realm :=
  let (surface, realm) := h.surface.apply h.session.resetNotice h.realm
  surface.drop realm

def hardReset (h : Hosted) : Hosted := made h.session.hardReset.1 h.session.hardReset.2 h.cleared

/-- The life of one context: its session's events, and whatever else happens to the document that
spares the blocks. At last: whether every call into the browser succeeded. -/
inductive Lives (a : Session) (r₀ : Realm) : Hosted → Bool → Prop where
  | made : Lives a r₀ (made a (Context.new a.context.options).2 r₀)
      (DocumentSurface.new.applySucceeds (Context.new a.context.options).2 r₀)
  | event {h : Hosted} {ok : Bool} {e : Session.Event} (hl : Lives a r₀ h ok)
      (he : h.session.Enabled e) (hr : e ≠ .hardReset) :
      Lives a r₀ (h.next e) (ok && h.surface.applySucceeds (h.session.next e).effects h.realm)
  | page {h : Hosted} {ok : Bool} {r : Realm} (hl : Lives a r₀ h ok) (hs : h.realm.Spares r) :
      Lives a r₀ { h with realm := r } ok

structure Fresh (s : Session) : Prop where
  context : s.context = (Context.new s.context.options).1
  flight : s.flight = none

/-- The context, its surface and the document agree by way of a backend in memory. -/
structure Agrees (before : String → List Node) (h : Hosted) (ok : Bool) (b : Headless) : Prop where
  depicts : Depicts before h.session.context.surfaces.ledger b h.surface h.realm
  sound : h.session.context.Sound b
  flying : ∀ f, h.session.flight = some f → h.session.Flying b f
  whole : ok = true → Whole b h.surface

theorem Lives.agrees {a : Session} {r₀ : Realm} {h : Hosted} {ok : Bool} (hl : Lives a r₀ h ok)
    (ha : Fresh a) (hr : r₀.Proper) : ∃ b, Agrees r₀.blocks h ok b := by
  induction hl with
  | made =>
    have hblank : Depicts r₀.blocks Ledger.blank .new .new r₀ :=
      ⟨hr, Ledger.Shown.blank, rfl, rfl, rfl⟩
    have hturn : Ledger.blank.replay (Surface.calls (Context.new a.context.options).2) =
        some a.context.surfaces.ledger := by
      rw [ha.context]
      exact Manager.new.change_ledger .bindCapture
    refine ⟨_, hblank.apply hturn, ?_, ?_, fun hok => Whole.apply ⟨rfl, rfl⟩ hblank hturn hok⟩
    · have hs := Context.Sound.new a.context.options
      rw [Headless.replay_eq_drive, ← ha.context] at hs
      exact hs
    · intro f hf
      exact absurd (ha.flight.symm.trans hf) (by simp)
  | @event h ok e _ he hne ih =>
    obtain ⟨b, hb⟩ := ih
    have hstep := Session.next_step he
    have hback : e.backend b = b := by cases e <;> first | rfl | exact absurd rfl hne
    have hsound := hstep.sound hb.sound hb.flying
    have hflying := fun f => hstep.flying hb.sound hb.flying (g := f)
    rw [hback, Headless.replay_eq_drive] at hsound hflying
    refine ⟨_, hb.depicts.apply (hstep.inTurn hne), hsound, hflying, fun hok => ?_⟩
    obtain ⟨hok, hs⟩ := Bool.and_eq_true_iff.mp hok
    exact (hb.whole hok).apply hb.depicts (hstep.inTurn hne) hs
  | page _ hs ih =>
    obtain ⟨b, hb⟩ := ih
    exact ⟨b, hb.depicts.spares hs, hb.sound, hb.flying, hb.whole⟩

section Reset

variable (h : Hosted)

theorem body_cleared :
    h.cleared.body = h.realm.body ∧ h.cleared.nextElement = h.realm.nextElement := by
  obtain ⟨events, he⟩ := h.realm.report_eq (.hardReset h.session.context.state.name)
  show (h.surface.drop (h.realm.report _)).body = _ ∧
    (h.surface.drop (h.realm.report _)).nextElement = _
  rw [he, drop]
  split <;> exact ⟨rfl, rfl⟩

theorem body_hardReset : h.hardReset.realm.body = h.realm.body :=
  (captureKeys_spec .new h.cleared).2.1.trans h.body_cleared.1

theorem blocks_hardReset (name : String) :
    h.hardReset.realm.blocks name = h.realm.blocks name := by
  rw [Realm.blocks, Realm.blocks, body_hardReset]

theorem canvases_hardReset : h.hardReset.realm.canvases = h.realm.canvases := by
  rw [Realm.canvases, Realm.canvases, body_hardReset]

theorem fresh_hardReset : Fresh h.session.hardReset.1 := by
  refine ⟨rfl, ?_⟩
  show h.session.land.flight = none
  unfold Session.land
  split
  · rfl
  · assumption

end Reset

namespace Agrees

variable {before : String → List Node} {h : Hosted} {ok : Bool} {b : Headless}

theorem shows (hb : Agrees before h ok b) {name : String} (hname : name ∈ blockIds) :
    ∃ text handle, Shows h.realm (before name) name text handle := by
  rcases List.mem_cons.mp hname with rfl | hname
  · exact ⟨_, _, hb.depicts.diagnostic⟩
  · obtain rfl := List.mem_singleton.mp hname
    exact ⟨_, _, hb.depicts.banner⟩

theorem blocks_eq_nil_iff (hb : Agrees before h ok b) :
    (∀ name ∈ blockIds, h.realm.blocks name = []) ↔ (∀ name ∈ blockIds, before name = []) ∧
      h.surface.diagnostic = none ∧ h.surface.banner = none := by
  have hd := hb.depicts.diagnostic.eq_before_iff
  have hban := hb.depicts.banner.eq_before_iff
  constructor
  · intro hnone
    have hbefore : ∀ name ∈ blockIds, before name = [] := by
      intro name hname
      obtain ⟨text, handle, hs⟩ := hb.shows hname
      have hkept := hs.kept
      rwa [hnone name hname, List.prefix_nil] at hkept
    refine ⟨hbefore, hd.mp ?_, hban.mp ?_⟩
    · rw [hnone _ diagnosticId_mem, hbefore _ diagnosticId_mem]
    · rw [hnone _ bannerId_mem, hbefore _ bannerId_mem]
  · rintro ⟨hbefore, hdn, hbn⟩ name hname
    rw [← hbefore name hname]
    rcases List.mem_cons.mp hname with rfl | hname
    · exact hd.mpr hdn
    · obtain rfl := List.mem_singleton.mp hname
      exact hban.mpr hbn

theorem diagnostic_iff (hb : Agrees before h ok b) (hok : ok = true) :
    h.surface.diagnostic = none ↔ h.session.context.state.fault? = none := by
  have hlive :
      h.surface.diagnostic = none ↔ h.session.context.surfaces.live ≠ some .diagnostic := by
    rw [← Option.not_isSome_iff_eq_none, (hb.whole hok).diagnostic, hb.sound.mirrors.diagnostic]
  rw [hlive]
  cases hst : h.session.context.state with
  | idle => simp [Host.State.fault?, hb.sound.idle hst]
  | booting => simp [Host.State.fault?, hb.sound.booting hst]
  | running => simp [Host.State.fault?, hb.sound.running hst]
  | faulted f => simp [Host.State.fault?, (hb.sound.faulted f hst).1]

theorem banner_iff (hb : Agrees before h ok b) (hok : ok = true) :
    h.surface.banner = none ↔ h.session.context.surfaces.bannerShown = false := by
  rw [← Option.not_isSome_iff_eq_none, (hb.whole hok).banner, hb.sound.mirrors.banner,
    Bool.not_eq_true]

theorem faulted (hb : Agrees before h ok b) (hok : ok = true) {f : Fault}
    (hf : h.session.context.state = .faulted f) :
    ∃ n, h.realm.blocks diagnosticId =
      before diagnosticId ++ [textBlock n diagnosticId f.banner] := by
  have hs := hb.depicts.diagnostic
  have hw := (hb.whole hok).diagnostic
  rw [(hb.sound.faulted f hf).2] at hs hw
  obtain ⟨n, hn⟩ := Option.isSome_iff_exists.mp hw
  rw [hn] at hs
  obtain ⟨t, ht, hblocks⟩ := hs
  obtain rfl := Option.some.inj ht
  exact ⟨n, hblocks⟩

end Agrees

theorem Lives.of_possible {o : Boot.Options} {r₀ : Realm} {es : List Session.Event}
    (hp : Session.Possible o es) (hr : .hardReset ∉ es) (hf : r₀.failures = []) :
    ∃ h, Lives (Session.new o).1 r₀ h true ∧ h.session = Session.after o es ∧
      h.realm.failures = [] := by
  induction es with
  | nil =>
    have hw := applySucceeds_of_working hf .new (Context.new o).2
    have hmade : Lives (Session.new o).1 r₀ _ _ := .made
    rw [show (Session.new o).1.context.options = o from rfl, hw.1] at hmade
    exact ⟨_, hmade, rfl, hw.2⟩
  | cons e es ih =>
    obtain ⟨h, hl, hs, hf⟩ := ih hp.2 fun hm => hr (List.mem_cons_of_mem _ hm)
    have hw := applySucceeds_of_working hf h.surface (h.session.next e).effects
    have hne : e ≠ .hardReset := by
      rintro rfl
      exact hr List.mem_cons_self
    have hnext := hl.event (hs ▸ hp.1) hne
    rw [hw.1] at hnext
    refine ⟨_, hnext, ?_, hw.2⟩
    rw [Session.after_cons, ← hs]
    rfl

/-- A document as a new context takes it to be: no blocks, and nothing that a guest has drawn. -/
def Bare (r : Realm) : Prop := (∀ name ∈ blockIds, r.blocks name = []) ∧ r.canvases = []

/-- What a hard reset leaves of a context that began on the document `r₀`. -/
structure ResetLaw (r₀ : Realm) (h : Hosted) (ok : Bool) : Prop where
  body : h.hardReset.realm.body = h.realm.body
  bookkeeping : h.hardReset.session.context.surfaces =
    { live := none, bannerShown := false, captureBound := true }
  /-- The bookkeeping is true of the document only if the old context had nothing mounted. -/
  bare : Bare h.hardReset.realm ↔ (∀ name ∈ blockIds, r₀.blocks name = []) ∧
    h.surface.diagnostic = none ∧ h.surface.banner = none ∧ h.realm.canvases = []
  diagnostic : ok = true →
    (h.surface.diagnostic = none ↔ h.session.context.state.fault? = none)
  banner : ok = true →
    (h.surface.banner = none ↔ h.session.context.surfaces.bannerShown = false)
  faulted : ok = true → ∀ f, h.session.context.state = .faulted f →
    ∃ n, h.hardReset.realm.blocks diagnosticId =
      r₀.blocks diagnosticId ++ [textBlock n diagnosticId f.banner]
  /-- The new context does not remove what the old one left. -/
  forGood : ∀ k ok', Lives h.session.hardReset.1 h.cleared k ok' →
    ∀ name ∈ blockIds, h.realm.blocks name <+: k.realm.blocks name

theorem reset_law {a : Session} {r₀ : Realm} {h : Hosted} {ok : Bool} (ha : Fresh a)
    (hr : r₀.Proper) (hl : Lives a r₀ h ok) : ResetLaw r₀ h ok := by
  obtain ⟨b, hb⟩ := hl.agrees ha hr
  refine ⟨h.body_hardReset, rfl, ?_, hb.diagnostic_iff, hb.banner_iff, ?_, ?_⟩
  · simp only [Bare, blocks_hardReset, canvases_hardReset, hb.blocks_eq_nil_iff, and_assoc]
  · intro hok f hf
    rw [blocks_hardReset]
    exact hb.faulted hok hf
  · intro k ok' hk name hname
    have hcleared : h.realm.Spares h.cleared :=
      .of_body hb.depicts.proper h.body_cleared.1 (Nat.le_of_eq h.body_cleared.2.symm)
    obtain ⟨c, hc⟩ := hk.agrees h.fresh_hardReset hcleared.proper
    obtain ⟨text, handle, hs⟩ := hc.shows hname
    rw [← hcleared.blocks name hname]
    exact hs.kept

theorem Sample.crash_lived : ∃ h, Lives (Session.new .default).1 Sample.page h true ∧
    h.session.context.state = .faulted Sample.fault ∧ h.session.stage = none := by
  have hp : Session.Possible .default Session.Sample.crashed := by decide +kernel
  have hr : Session.Event.hardReset ∉ Session.Sample.crashed := by
    simp [Session.Sample.crashed, Session.Sample.booted, Session.Sample.request]
  obtain ⟨h, hl, hs, -⟩ := Lives.of_possible hp hr (show Sample.page.failures = [] from rfl)
  refine ⟨h, hl, ?_, ?_⟩ <;> rw [hs] <;> decide +kernel

theorem reset_law_of_fault :
    Fresh (Session.new .default).1 ∧ Sample.page.Proper ∧
    ∃ h, Lives (Session.new .default).1 Sample.page h true ∧
      h.session.context.state = .faulted Sample.fault ∧ h.session.stage = none ∧
      ResetLaw Sample.page h true := by
  have ha : Fresh (Session.new .default).1 := ⟨rfl, rfl⟩
  obtain ⟨h, hl, hf, hs⟩ := Sample.crash_lived
  exact ⟨ha, Sample.page_proper, h, hl, hf, hs, reset_law ha Sample.page_proper hl⟩

/-- Its diagnostic survives the hard reset, and the new context does not know of it. -/
theorem diagnostic_outlives_reset :
    Bare Sample.page ∧
    ∃ h, Lives (Session.new .default).1 Sample.page h true ∧
      h.session.stage = none ∧ h.hardReset.session.context.surfaces.live = none ∧
      (∃ n, h.hardReset.realm.blocks diagnosticId =
        [textBlock n diagnosticId Sample.fault.banner]) ∧
      ¬ Bare h.hardReset.realm := by
  obtain ⟨h, hl, hf, hs⟩ := Sample.crash_lived
  obtain ⟨b, hb⟩ := hl.agrees ⟨rfl, rfl⟩ Sample.page_proper
  obtain ⟨n, hn⟩ := hb.faulted rfl hf
  rw [← blocks_hardReset] at hn
  refine ⟨⟨by decide, by decide⟩, h, hl, hs, rfl, ⟨n, hn⟩, fun hbare => ?_⟩
  have hnone := hbare.1 _ diagnosticId_mem
  rw [hn] at hnone
  simp at hnone

end Hosted

end Browser

end Chip8Frame
