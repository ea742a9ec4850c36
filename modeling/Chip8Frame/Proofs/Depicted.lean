import Chip8Frame.Proofs.Blocks
import Chip8Frame.Proofs.SurfaceLog

/-! The document surface beside the backend in memory, under one manager and with a guest that draws
in between. Calls into the browser may fail. What the document shows under a name is then either the
text that the backend in memory holds, in one finished block, or nothing. -/

namespace Chip8Frame.Browser

open Surface (Call Headless Ledger Manager Operation)

namespace DocumentSurface

def textBlock (n : Nat) (name text : String) : Node :=
  { Node.new n "pre" with
    attributes := [("id", name), ("unselectable", "on"), ("style", unselectable)]
    text := some text }

theorem textBlock_eq (n : Nat) (name text : String) :
    (({ (Node.new n "pre").setAttribute "id" name with text := some text }).setAttribute
      "unselectable" "on").setAttribute "style" unselectable = textBlock n name text := by
  simp [textBlock, Node.setAttribute, Node.removeAttribute, Node.new]

theorem textBlock_named (n : Nat) (name text m : String) :
    (textBlock n name text).named m = decide (name = m) := by
  simp [textBlock, Node.named, Node.attribute?]

section Calls

theorem createElement_cases (tag : String) (r : Realm) :
    (∃ v, Browsing.createElement tag r = (.error v, r)) ∨
      Browsing.createElement tag r = (.ok (r.newNode tag).1, (r.newNode tag).2) :=
  Browsing.attempt_cases "create_element" (some tag) _ r

theorem setAttributeOf_cases (n : Node) (name value : String) (r : Realm) :
    (∃ v, Browsing.setAttributeOf n name value r = (.error v, r)) ∨
      Browsing.setAttributeOf n name value r =
        (.ok (n.setAttribute name value), r.record (.setAttribute n.label name value)) :=
  Browsing.attempt_cases "set_attribute" (some name) _ r

theorem appendToBody_cases (e : Element) (r : Realm) :
    (∃ v, Browsing.appendToBody e r = (.error v, r)) ∨
      Browsing.appendToBody e r = (.ok (), r.appendToBody e) :=
  Browsing.attempt_cases "append_child" none _ r

theorem addTextBlock_cases (name text : String) (r : Realm) :
    (∃ v s, addTextBlock name text r = (.error v, s) ∧ s.body = r.body ∧
      r.nextElement ≤ s.nextElement) ∨
    ∃ s, addTextBlock name text r = (.ok r.nextElement, s) ∧
      s.body = r.body.map (·.push (.mk (textBlock r.nextElement name text) [])) ∧
      s.nextElement = r.nextElement + 1 := by
  rw [addTextBlock, Browsing.bind_eq]
  rcases createElement_cases "pre" r with ⟨v, hv⟩ | hv <;> rw [hv]
  · exact .inl ⟨v, r, rfl, rfl, Nat.le_refl _⟩
  dsimp only
  rw [Browsing.bind_eq]
  generalize hn : ({ (r.newNode "pre").1.setAttribute "id" name with text := some text } : Node) = n
  rcases setAttributeOf_cases n "unselectable" "on" (r.newNode "pre").2 with ⟨v, hv⟩ | hv <;>
    rw [hv]
  · exact .inl ⟨v, _, rfl, rfl, Nat.le_succ _⟩
  dsimp only
  rw [Browsing.bind_eq]
  generalize hs : (r.newNode "pre").2.record _ = s
  rcases setAttributeOf_cases (n.setAttribute "unselectable" "on") "style" unselectable s with
    ⟨v, hv⟩ | hv <;> rw [hv]
  · subst hs
    exact .inl ⟨v, _, rfl, rfl, Nat.le_succ _⟩
  dsimp only
  have hblock : (n.setAttribute "unselectable" "on").setAttribute "style" unselectable =
      textBlock r.nextElement name text := by
    rw [← hn]
    exact textBlock_eq r.nextElement name text
  rw [Browsing.bind_eq, hblock]
  generalize ht : s.record _ = t
  have hbody : t.body = r.body := by rw [← ht, ← hs]; rfl
  have hnext : t.nextElement = r.nextElement + 1 := by rw [← ht, ← hs]; rfl
  rcases appendToBody_cases (.mk (textBlock r.nextElement name text) []) t with ⟨v, hv⟩ | hv <;>
    rw [hv]
  · exact .inl ⟨v, t, rfl, hbody, hnext ▸ Nat.le_succ _⟩
  · refine .inr ⟨_, rfl, ?_, ?_⟩
    · rw [Realm.body_appendToBody, hbody]
    · rw [Realm.nextElement_appendToBody, hnext]

end Calls

/-- What the document shows under a name, with the block that the surface holds and the text that it
should have: the blocks that were there before, and that one behind them. -/
def Shows (r : Realm) (before : List Node) (name : String) (text : Option String) :
    Option Nat → Prop
  | none => r.blocks name = before
  | some n => ∃ t, text = some t ∧ r.blocks name = before ++ [textBlock n name t]

section Shows

variable {r s : Realm} {before : List Node} {name other : String} {text : Option String}
  {handle : Option Nat}

theorem Shows.congr (h : Shows r before name text handle) (hs : s.blocks name = r.blocks name) :
    Shows s before name text handle := by
  cases handle with
  | none => exact hs.trans h
  | some n =>
    obtain ⟨t, ht, hb⟩ := h
    exact ⟨t, ht, hs.trans hb⟩

theorem Shows.bare (h : Shows r before name none handle) :
    handle = none ∧ r.blocks name = before := by
  cases handle with
  | none => exact ⟨rfl, h⟩
  | some n =>
    obtain ⟨t, ht, -⟩ := h
    cases ht

theorem Shows.kept (h : Shows r before name text handle) : before <+: r.blocks name := by
  cases handle with
  | none => exact (show r.blocks name = before from h) ▸ List.prefix_rfl
  | some n =>
    obtain ⟨t, -, hb⟩ := h
    exact ⟨_, hb.symm⟩

theorem Shows.eq_before_iff (h : Shows r before name text handle) :
    r.blocks name = before ↔ handle = none := by
  cases handle with
  | none => exact ⟨fun _ => rfl, fun _ => h⟩
  | some n =>
    obtain ⟨t, -, hb⟩ := h
    simp [hb]

/-- What happened to the document left the blocks of other names alone. -/
structure Touches (name : String) (r s : Realm) : Prop where
  proper : s.Proper
  others : ∀ m ∈ blockIds, m ≠ name → s.blocks m = r.blocks m

theorem addTextBlock_spec (hr : r.Proper) (name t : String) :
    (∃ v s, addTextBlock name t r = (.error v, s) ∧ r.Spares s) ∨
    ∃ n s, addTextBlock name t r = (.ok n, s) ∧ Touches name r s ∧
      s.blocks name = r.blocks name ++ [textBlock n name t] := by
  rcases addTextBlock_cases name t r with ⟨v, s, he, hb, hn⟩ | ⟨s, he, hb, hn⟩
  · exact .inl ⟨v, s, he, .of_body hr hb hn⟩
  · obtain ⟨b, hbody, hp⟩ := hr
    rw [hbody, Option.map_some] at hb
    have hblocks : ∀ m, s.blocks m =
        r.blocks m ++ [textBlock r.nextElement name t].filter (·.named m) := by
      intro m
      rw [Realm.blocks_eq hb, Realm.blocks_eq hbody, Element.Proper.blocks_push]
    refine .inr ⟨r.nextElement, s, he, ⟨⟨_, hb, ?_⟩, ?_⟩, ?_⟩
    · rw [hn]
      exact hp.push rfl (.inl (show "pre" ≠ "canvas" by decide))
    · intro m _ hne
      rw [hblocks, List.filter_cons_of_neg (by simpa [textBlock_named] using hne.symm),
        List.filter_nil, List.append_nil]
    · rw [hblocks, List.filter_cons_of_pos (by simp [textBlock_named]), List.filter_nil]

/-- A block is due where none was: it is held and shown, or the call failed and neither is so. -/
theorem mount_spec (hr : r.Proper) (hname : name ∈ blockIds) (h : Shows r before name none handle)
    (t : String) (notice : Value → Log.Notice) :
    Touches name r (Browsing.reported notice (addTextBlock name t r)) ∧
      Shows (Browsing.reported notice (addTextBlock name t r)) before name (some t)
        (held handle (addTextBlock name t r).1) := by
  obtain ⟨rfl, hb⟩ := h.bare
  rcases addTextBlock_spec hr name t with ⟨v, s, he, hs⟩ | ⟨n, s, he, ht, hs⟩ <;> rw [he]
  · have hn := hs.trans (.report hs.proper (notice v))
    exact ⟨⟨hn.proper, fun m hm _ => hn.blocks m hm⟩, (hn.blocks name hname).trans hb⟩
  · exact ⟨ht, t, rfl, hb ▸ hs⟩

theorem held_isSome {x : Except Value Nat} (hx : x.isOk = true) (old : Option Nat) :
    (held old x).isSome = true := by
  cases x with
  | error v => cases hx
  | ok n => rfl

theorem removeBlock_spec (hr : r.Proper) (hname : name ∈ blockIds)
    (h : Shows r before name text handle) :
    Touches name r (removeBlock r handle) ∧ (removeBlock r handle).blocks name = before := by
  cases handle with
  | none => exact ⟨⟨hr, fun _ _ _ => rfl⟩, h⟩
  | some n =>
    obtain ⟨t, -, hb⟩ := h
    have hown : textBlock n name t ∈ r.blocks name := by simp [hb]
    refine ⟨⟨hr.removeElement n, fun m hm hne => ?_⟩, ?_⟩
    · rw [removeBlock, hr.blocks_removeElement n hm, List.filter_eq_self]
      intro x hx
      simp only [ne_eq, decide_eq_true_eq]
      intro hid
      have hnamed := Realm.named_of_mem_blocks hx
      rw [hr.eq_of_id_eq hx hown hid, textBlock_named] at hnamed
      exact hne (of_decide_eq_true hnamed).symm
    · have hnodup := hr.nodup_blocks name
      rw [hb, List.map_append, List.nodup_append] at hnodup
      rw [removeBlock, hr.blocks_removeElement n hname, hb, List.filter_append,
        List.filter_eq_self.mpr, List.filter_cons_of_neg (by simp [textBlock, Node.new]),
        List.filter_nil, List.append_nil]
      intro x hx
      simpa [textBlock, Node.new] using
        hnodup.2.2 x.id (List.mem_map_of_mem hx) n (by simp [textBlock, Node.new])

theorem removeCanvases_cases (r : Realm) :
    (∃ v, removeCanvases r = (.error v, r)) ∨
      removeCanvases r = (.ok r.canvases.length,
        r.canvases.foldl (fun r n => r.removeElement n.id) r) := by
  have hquery : (∃ v, Browsing.queryCanvases r = (.error v, r)) ∨
      Browsing.queryCanvases r = (.ok r.canvases, r) :=
    Browsing.attempt_cases "query_selector_all" none _ r
  rw [removeCanvases, Browsing.bind_eq]
  rcases hquery with ⟨v, hv⟩ | hv <;> rw [hv]
  · exact .inl ⟨v, rfl⟩
  · exact .inr rfl

theorem removeCanvases_spares (hr : r.Proper) : r.Spares (removeCanvases r).2 := by
  rcases removeCanvases_cases r with ⟨v, he⟩ | he <;> rw [he]
  · exact .refl hr
  · exact .removeEach hr fun name hname n hn c hc => hr.block_id_ne hname hn hc

theorem removeCanvases_canvases (hr : r.Topped) (hok : (removeCanvases r).1.isOk = true) :
    (removeCanvases r).2.canvases = [] := by
  rcases removeCanvases_cases r with ⟨v, he⟩ | he <;> rw [he] at hok ⊢
  · cases hok
  · refine List.eq_nil_iff_forall_not_mem.mpr fun n hn => ?_
    obtain ⟨hn, hids⟩ := hr.mem_canvases_removeEach hn
    exact hids n hn rfl

theorem unmountDisplay_spec (hr : r.Proper) (d : DocumentSurface) :
    (d.unmountDisplay r).1 = { d with display := none } ∧ r.Spares (d.unmountDisplay r).2 := by
  have hs := removeCanvases_spares hr
  unfold unmountDisplay
  split
  · next he =>
    rw [he] at hs
    exact ⟨rfl, hs.trans (.report hs.proper _)⟩
  · next he =>
    rw [he] at hs
    exact ⟨rfl, hs.trans (.report hs.proper _)⟩

theorem unmountDisplay_empties (hr : r.Topped) (d : DocumentSurface)
    (hok : (removeCanvases r).1.isOk = true) : (d.unmountDisplay r).2.canvases = [] := by
  have hnone := removeCanvases_canvases hr hok
  unfold unmountDisplay
  split
  · next count s he =>
    rw [he] at hnone
    obtain ⟨events, hs⟩ := s.report_eq (.canvasesRemoved count)
    rw [hs]
    exact hnone
  · next he => simp [he, Except.isOk, Except.toBool] at hok

theorem unmountDisplay_canvases (hr : r.Proper) (d : DocumentSurface)
    (hok : (removeCanvases r).1.isOk = true) : (d.unmountDisplay r).2.canvases = [] :=
  unmountDisplay_empties hr.topped d hok

theorem captureKeys_spec (d : DocumentSurface) (r : Realm) :
    (∃ keyClosure, (d.captureKeys r).1 = { d with keyClosure }) ∧
      (d.captureKeys r).2.body = r.body ∧ (d.captureKeys r).2.nextElement = r.nextElement := by
  simp only [captureKeys, Browsing.listen_eq]
  split
  · next he =>
    split at he
    · cases he
    · cases he
      refine ⟨⟨_, rfl⟩, ?_⟩
      cases d.keyClosure <;> exact ⟨rfl, rfl⟩
  · next v s he =>
    split at he
    · cases he
      obtain ⟨events, hs⟩ := (r.newClosure .suppressKeys).2.report_eq (.keyCaptureFailed v.inDebug)
      rw [hs]
      exact ⟨⟨d.keyClosure, rfl⟩, rfl, rfl⟩
    · cases he

theorem captureKeys_spares (hr : r.Proper) (d : DocumentSurface) :
    r.Spares (d.captureKeys r).2 :=
  .of_body hr (captureKeys_spec d r).2.1 (Nat.le_of_eq (captureKeys_spec d r).2.2.symm)

end Shows

/-- The document and its surface depict the backend in memory, beside the blocks that were there
before. -/
structure Depicts (before : String → List Node) (l : Ledger) (b : Headless) (d : DocumentSurface)
    (r : Realm) : Prop where
  proper : r.Proper
  shown : l.Shown b
  display : d.display = b.display
  diagnostic : Shows r (before diagnosticId) diagnosticId b.diagnostic d.diagnostic
  banner : Shows r (before bannerId) bannerId b.banner d.banner

theorem diagnosticId_mem : diagnosticId ∈ blockIds := by decide

theorem bannerId_mem : bannerId ∈ blockIds := by decide

theorem bannerId_ne_diagnosticId : bannerId ≠ diagnosticId := by decide

namespace Depicts

variable {before : String → List Node} {l k : Ledger} {b : Headless} {d : DocumentSurface}
  {r s : Realm} {call : Call}

theorem spares (h : Depicts before l b d r) (hs : r.Spares s) : Depicts before l b d s where
  proper := hs.proper
  shown := h.shown
  display := h.display
  diagnostic := h.diagnostic.congr (hs.blocks _ diagnosticId_mem)
  banner := h.banner.congr (hs.blocks _ bannerId_mem)

theorem enter (h : Depicts before l b d r) (hk : l.enter call = some k) :
    Depicts before k (b.perform call) (d.perform call r).1 (d.perform call r).2 := by
  have hshown := h.shown.enter hk
  cases call with
  | mountDisplay width height =>
    have hr := Realm.Spares.report h.proper (.displayReserved width height)
    exact ⟨hr.proper, hshown, rfl, h.diagnostic.congr (hr.blocks _ diagnosticId_mem),
      h.banner.congr (hr.blocks _ bannerId_mem)⟩
  | mountDiagnostic text =>
    simp only [Ledger.enter, Option.ite_none_right_eq_some] at hk
    have hnone : b.diagnostic = none := by simpa [hk.1] using h.shown.diagnostic
    obtain ⟨ht, hs⟩ := mount_spec h.proper diagnosticId_mem (hnone ▸ h.diagnostic) text
      fun v => .diagnosticFailed v.inDebug
    rw [perform, mountDiagnostic_eq]
    exact ⟨ht.proper, hshown, h.display, hs,
      h.banner.congr (ht.others _ bannerId_mem bannerId_ne_diagnosticId)⟩
  | unmount kind =>
    cases kind with
    | display =>
      obtain ⟨hd, hr⟩ := unmountDisplay_spec h.proper d
      simp only [perform, hd]
      exact ⟨hr.proper, hshown, rfl, h.diagnostic.congr (hr.blocks _ diagnosticId_mem),
        h.banner.congr (hr.blocks _ bannerId_mem)⟩
    | diagnostic =>
      obtain ⟨ht, hb⟩ := removeBlock_spec h.proper diagnosticId_mem h.diagnostic
      exact ⟨ht.proper, hshown, h.display, hb,
        h.banner.congr (ht.others _ bannerId_mem bannerId_ne_diagnosticId)⟩
  | mountBanner text =>
    simp only [Ledger.enter, Option.ite_none_left_eq_some] at hk
    have hnone : b.banner = none := by simpa [hk.1] using h.shown.banner
    obtain ⟨ht, hs⟩ := mount_spec h.proper bannerId_mem (hnone ▸ h.banner) text
      fun v => .bannerFailed v.inDebug
    rw [perform, mountBanner_eq]
    exact ⟨ht.proper, hshown, h.display,
      h.diagnostic.congr (ht.others _ diagnosticId_mem bannerId_ne_diagnosticId.symm), hs⟩
  | unmountBanner =>
    obtain ⟨ht, hb⟩ := removeBlock_spec h.proper bannerId_mem h.banner
    exact ⟨ht.proper, hshown, h.display,
      h.diagnostic.congr (ht.others _ diagnosticId_mem bannerId_ne_diagnosticId.symm), hb⟩
  | captureKeys =>
    obtain ⟨⟨keyClosure, hd⟩, -⟩ := captureKeys_spec d r
    have hr := captureKeys_spares h.proper d
    simp only [perform, hd]
    exact ⟨hr.proper, hshown, h.display, h.diagnostic.congr (hr.blocks _ diagnosticId_mem),
      h.banner.congr (hr.blocks _ bannerId_mem)⟩

theorem apply {es : List Effect} (h : Depicts before l b d r)
    (hk : l.replay (Surface.calls es) = some k) :
    Depicts before k (Manager.drive Headless.perform b es) (d.apply es r).1 (d.apply es r).2 := by
  induction es generalizing l b d r with
  | nil =>
    obtain rfl := Option.some.inj hk
    exact h
  | cons e es ih =>
    cases e with
    | note n => exact ih (h.spares (.report h.proper n)) hk
    | surface call =>
      obtain ⟨i, hi, hk⟩ := Option.bind_eq_some_iff.mp hk
      exact ih (h.enter hi) hk

end Depicts

/-- Whether every call into the browser succeeds that a call of the surface comes down to. -/
def succeeds (r : Realm) : Call → Bool
  | .mountDiagnostic text => (addTextBlock diagnosticId text r).1.isOk
  | .mountBanner text => (addTextBlock bannerId text r).1.isOk
  | .unmount .display => (removeCanvases r).1.isOk
  | .captureKeys =>
      (Browsing.listen (keyListener r.nextClosure) (r.newClosure .suppressKeys).2).1.isOk
  | .mountDisplay _ _ | .unmount .diagnostic | .unmountBanner => true

def applySucceeds (d : DocumentSurface) : List Effect → Realm → Bool
  | [], _ => true
  | .note n :: es, r => d.applySucceeds es (r.report n)
  | .surface call :: es, r =>
      succeeds r call && (d.perform call r).1.applySucceeds es (d.perform call r).2

structure Whole (b : Headless) (d : DocumentSurface) : Prop where
  diagnostic : d.diagnostic.isSome = b.diagnostic.isSome
  banner : d.banner.isSome = b.banner.isSome

namespace Whole

variable {b : Headless} {d : DocumentSurface} {r : Realm}

theorem perform {call : Call} (h : Whole b d) (hr : r.Proper) (hs : succeeds r call = true) :
    Whole (b.perform call) (d.perform call r).1 := by
  cases call with
  | mountDisplay width height => exact ⟨h.diagnostic, h.banner⟩
  | mountDiagnostic text =>
    rw [DocumentSurface.perform, mountDiagnostic_eq]
    exact ⟨held_isSome hs _, h.banner⟩
  | unmount kind =>
    cases kind with
    | display =>
      simp only [DocumentSurface.perform, (unmountDisplay_spec hr d).1]
      exact ⟨h.diagnostic, h.banner⟩
    | diagnostic => exact ⟨rfl, h.banner⟩
  | mountBanner text =>
    rw [DocumentSurface.perform, mountBanner_eq]
    exact ⟨h.diagnostic, held_isSome hs _⟩
  | unmountBanner => exact ⟨h.diagnostic, rfl⟩
  | captureKeys =>
    obtain ⟨⟨keyClosure, hd⟩, -⟩ := captureKeys_spec d r
    simp only [DocumentSurface.perform, hd]
    exact ⟨h.diagnostic, h.banner⟩

theorem apply {before : String → List Node} {l k : Ledger} {es : List Effect} (h : Whole b d)
    (hd : Depicts before l b d r) (hk : l.replay (Surface.calls es) = some k)
    (hs : d.applySucceeds es r = true) :
    Whole (Manager.drive Headless.perform b es) (d.apply es r).1 := by
  induction es generalizing l b d r with
  | nil => exact h
  | cons e es ih =>
    cases e with
    | note n => exact ih h (hd.spares (.report hd.proper n)) hk hs
    | surface call =>
      obtain ⟨i, hi, hk⟩ := Option.bind_eq_some_iff.mp hk
      obtain ⟨hcall, hs⟩ := Bool.and_eq_true_iff.mp hs
      exact ih (h.perform hd.proper hcall) (hd.enter hi) hk hs

end Whole

/-- What the operations of a manager on a new surface make of a document, newest first, while
others may change it in between as long as they spare the blocks. At last: whether every call into
the browser succeeded. -/
inductive Reached (r₀ : Realm) : List Operation → DocumentSurface → Realm → Bool → Prop where
  | start : Reached r₀ [] .new r₀ true
  | ask {ops : List Operation} {d : DocumentSurface} {r : Realm} {ok : Bool} (op : Operation)
      (h : Reached r₀ ops d r ok) :
      Reached r₀ (op :: ops) (d.apply (op.change (Manager.after ops)).effects r).1
        (d.apply (op.change (Manager.after ops)).effects r).2
        (ok && d.applySucceeds (op.change (Manager.after ops)).effects r)
  | page {ops : List Operation} {d : DocumentSurface} {r s : Realm} {ok : Bool}
      (h : Reached r₀ ops d r ok) (hs : r.Spares s) : Reached r₀ ops d s ok

def mirrored (ops : List Operation) : Headless := Manager.driven Headless.perform .new ops

namespace Reached

variable {r₀ r : Realm} {ops : List Operation} {d : DocumentSurface} {ok : Bool}

theorem depicts (h : Reached r₀ ops d r ok) (hr : r₀.Proper) :
    Depicts r₀.blocks (Manager.after ops).ledger (mirrored ops) d r := by
  induction h with
  | start => exact ⟨hr, Ledger.Shown.blank, rfl, rfl, rfl⟩
  | ask op _ ih => exact ih.apply ((Manager.after _).change_ledger op)
  | page _ hs ih => exact ih.spares hs

theorem whole (h : Reached r₀ ops d r ok) (hr : r₀.Proper) (hok : ok = true) :
    Whole (mirrored ops) d := by
  induction h with
  | start => exact ⟨rfl, rfl⟩
  | ask op h ih =>
    obtain ⟨hok, hs⟩ := Bool.and_eq_true_iff.mp hok
    exact (ih hok).apply (h.depicts hr) ((Manager.after _).change_ledger op) hs
  | page _ _ ih => exact ih hok

end Reached

/-- The document has a text under a name, in one finished block, or nothing where no text is due. -/
def Carries (r : Realm) (name : String) : Option String → Prop
  | none => r.blocks name = []
  | some t => ∃ n, r.blocks name = [textBlock n name t]

def Tidy (r : Realm) : Prop := ∀ name ∈ blockIds, ∃ text, Carries r name text

section Bare

variable {r : Realm} {before : String → List Node} {name : String} {text : Option String}
  {handle : Option Nat}

theorem Shows.carries (h : Shows r [] name text handle) :
    ∃ t, Carries r name t ∧ (handle.isSome = text.isSome → t = text) := by
  cases handle with
  | none =>
    refine ⟨none, h, fun hs => ?_⟩
    cases text with
    | none => rfl
    | some t => cases hs
  | some n =>
    obtain ⟨t, rfl, hb⟩ := h
    exact ⟨some t, ⟨n, hb⟩, fun _ => rfl⟩

theorem Depicts.tidy {l : Ledger} {b : Headless} {d : DocumentSurface}
    (hb : ∀ name ∈ blockIds, before name = []) (h : Depicts before l b d r) : Tidy r := by
  intro name hname
  rcases List.mem_cons.mp hname with rfl | hname
  · have hs := h.diagnostic
    rw [hb _ diagnosticId_mem] at hs
    obtain ⟨t, ht, -⟩ := hs.carries
    exact ⟨t, ht⟩
  · obtain rfl := List.mem_singleton.mp hname
    have hs := h.banner
    rw [hb _ bannerId_mem] at hs
    obtain ⟨t, ht, -⟩ := hs.carries
    exact ⟨t, ht⟩

end Bare

/-- What holds of a document that held no blocks at first, after the operations. -/
structure RefinementLaw (ops : List Operation) (d : DocumentSurface) (r : Realm) (ok : Bool) :
    Prop where
  diagnostic : ok = true → Carries r diagnosticId (mirrored ops).diagnostic
  banner : ok = true → Carries r bannerId (mirrored ops).banner
  live : (mirrored ops).diagnostic.isSome ↔ (Manager.after ops).live = some .diagnostic
  bannerShown : (mirrored ops).banner.isSome ↔ (Manager.after ops).bannerShown = true
  display : d.display = (mirrored ops).display
  /-- Whatever fails, and in the middle of the next operation too. -/
  tidy : ∀ (op : Operation) (es : List Effect), es <+: (op.change (Manager.after ops)).effects →
    Tidy (d.apply es r).2
  cleared : (d.apply (Manager.after ops).clear.effects r).2.blocks diagnosticId = [] ∧
    (d.apply (Manager.after ops).clear.effects r).1.display = none
  /-- The canvases of a display go with it, if they are found. -/
  canvases : (Manager.after ops).live = some .display →
    d.applySucceeds (Manager.after ops).clear.effects r = true →
    (d.apply (Manager.after ops).clear.effects r).2.canvases = []
  bannerRemoved : (d.apply (Manager.after ops).removeBanner.effects r).2.blocks bannerId = []

theorem refinement_law {r₀ r : Realm} {ops : List Operation} {d : DocumentSurface} {ok : Bool}
    (hr : r₀.Proper) (hbare : ∀ name ∈ blockIds, r₀.blocks name = [])
    (h : Reached r₀ ops d r ok) : RefinementLaw ops d r ok := by
  have hd := h.depicts hr
  have hclear := (Reached.ask .clear h).depicts hr
  have hremove := (Reached.ask .removeBanner h).depicts hr
  have hempty : (Manager.after (.clear :: ops)).live = none := (Manager.after ops).clear_live
  have hgone : (Manager.after (.removeBanner :: ops)).bannerShown = false :=
    (Manager.after ops).removeBanner_bannerShown
  constructor
  · intro hok
    have hs := hd.diagnostic
    rw [hbare _ diagnosticId_mem] at hs
    obtain ⟨t, ht, heq⟩ := hs.carries
    exact heq (h.whole hr hok).diagnostic ▸ ht
  · intro hok
    have hs := hd.banner
    rw [hbare _ bannerId_mem] at hs
    obtain ⟨t, ht, heq⟩ := hs.carries
    exact heq (h.whole hr hok).banner ▸ ht
  · exact hd.shown.diagnostic
  · exact hd.shown.banner
  · exact hd.display
  · rintro op es ⟨fs, he⟩
    have hreplay := (Manager.after ops).change_ledger op
    rw [← he, Surface.calls_append, Ledger.replay_append] at hreplay
    obtain ⟨k, hk, -⟩ := Option.bind_eq_some_iff.mp hreplay
    exact (hd.apply hk).tidy hbare
  · constructor
    · have hnone : (mirrored (.clear :: ops)).diagnostic = none := by
        simpa [Manager.ledger, hempty] using hclear.shown.diagnostic
      exact (hnone ▸ hclear.diagnostic).bare.2.trans (hbare _ diagnosticId_mem)
    · have hnone : (mirrored (.clear :: ops)).display = none := by
        simpa [Manager.ledger, hempty] using hclear.shown.display
      exact hclear.display.trans hnone
  · intro hl hs
    have he : (Manager.after ops).clear.effects =
        [.note (.removingSurface .display), .surface (.unmount .display)] := by
      simp [Manager.clear, hl]
    rw [he] at hs ⊢
    have hreport := Realm.Spares.report hd.proper (.removingSurface .display)
    have hok : (removeCanvases (r.report (.removingSurface .display))).1.isOk = true := by
      simpa [applySucceeds, succeeds] using hs
    exact unmountDisplay_canvases hreport.proper d hok
  · have hnone : (mirrored (.removeBanner :: ops)).banner = none := by
      simpa [Manager.ledger, hgone] using hremove.shown.banner
    exact (hnone ▸ hremove.banner).bare.2.trans (hbare _ bannerId_mem)

section Working

variable {α β : Type} {r : Realm}

def Works (x : Browsing α) : Prop := ∀ r : Realm, r.failures = [] → ∃ a, (x r).1 = .ok a

theorem Works.bind {x : Browsing α} {f : α → Browsing β} (hx : Works x) (hk : x.Keeps)
    (hf : ∀ a, Works (f a)) : Works (x >>= f) := by
  intro r hr
  obtain ⟨a, ha⟩ := hx r hr
  rw [Browsing.bind_eq]
  rcases hxr : x r with ⟨v | b, s⟩
  · simp [hxr] at ha
  · have hs : s.failures = [] := by
      have hkept := hk r
      rw [hxr] at hkept
      exact hkept.failures.trans hr
    exact hf b s hs

theorem Works.attempt (call : String) (argument : Option String) :
    Works (Browsing.attempt call argument) := by
  intro r hr
  rw [Browsing.attempt_eq]
  cases argument <;> simp [Realm.failure?, hr]

theorem setAttributeOf_works (n : Node) (name value : String) :
    Works (Browsing.setAttributeOf n name value) :=
  .bind (.attempt _ _) (.attempt _ _) fun _ _ _ => ⟨_, rfl⟩

theorem addTextBlock_works (name text : String) : Works (addTextBlock name text) :=
  .bind (.bind (.attempt _ _) (.attempt _ _) fun _ _ _ => ⟨_, rfl⟩)
      (Browsing.createElement_keeps _) fun _ =>
    .bind (setAttributeOf_works _ _ _) (Browsing.setAttributeOf_keeps _ _ _) fun _ =>
      .bind (setAttributeOf_works _ _ _) (Browsing.setAttributeOf_keeps _ _ _) fun _ =>
        .bind (.bind (.attempt _ _) (.attempt _ _) fun _ _ _ => ⟨_, rfl⟩)
          (Browsing.appendToBody_keeps _) fun _ _ _ => ⟨_, rfl⟩

theorem removeCanvases_works : Works removeCanvases :=
  .bind (.bind (.attempt _ _) (.attempt _ _) fun _ _ _ => ⟨_, rfl⟩) Browsing.queryCanvases_keeps
    fun _ _ _ => ⟨_, rfl⟩

theorem perform_failures (d : DocumentSurface) (call : Call) (r : Realm) :
    (d.perform call r).2.failures = r.failures := by
  by_cases hc : call = .captureKeys
  · subst hc
    simp only [perform, captureKeys, Browsing.listen_eq]
    split <;> next he =>
      split at he <;> cases he
      first
        | exact (Realm.Kept.report (r.newClosure .suppressKeys).2 _).failures
        | cases d.keyClosure <;> rfl
  · exact (d.perform_kept hc r).failures

theorem succeeds_of_working (hf : r.failures = []) (call : Call) : succeeds r call = true := by
  have hok : ∀ {x : Browsing Nat}, Works x → (x r).1.isOk = true := by
    intro x hx
    obtain ⟨a, ha⟩ := hx r hf
    rw [ha]
    rfl
  cases call with
  | mountDiagnostic text => exact hok (addTextBlock_works _ _)
  | mountBanner text => exact hok (addTextBlock_works _ _)
  | unmount kind =>
    cases kind with
    | display => exact hok removeCanvases_works
    | diagnostic => rfl
  | captureKeys =>
    simp [succeeds, Browsing.listen_eq, Realm.failure?, Realm.newClosure, hf, Except.isOk,
      Except.toBool]
  | mountDisplay | unmountBanner => rfl

theorem applySucceeds_of_working (hf : r.failures = []) (d : DocumentSurface) (es : List Effect) :
    d.applySucceeds es r = true ∧ (d.apply es r).2.failures = [] := by
  induction es generalizing d r with
  | nil => exact ⟨rfl, hf⟩
  | cons e es ih =>
    cases e with
    | note n => exact ih ((Realm.Kept.report r n).failures.trans hf) d
    | surface call =>
      have hrest := ih ((d.perform_failures call r).trans hf) (d.perform call r).1
      exact ⟨by simp [applySucceeds, succeeds_of_working hf, hrest.1], hrest.2⟩

end Working

theorem Reached.ask_working {r₀ r : Realm} {ops : List Operation} {d : DocumentSurface}
    (h : Reached r₀ ops d r true) (hf : r.failures = []) (op : Operation) :
    ∃ e s, Reached r₀ (op :: ops) e s true ∧ s.failures = [] := by
  have hw := applySucceeds_of_working hf d (op.change (Manager.after ops)).effects
  have hask := h.ask op
  rw [hw.1] at hask
  exact ⟨_, _, hask, hw.2⟩

def Sample.page : Realm :=
  { Realm.empty with body := some (.mk (.new 0 "body") []), nextElement := 1 }

theorem Sample.page_proper : Sample.page.Proper := by
  refine ⟨_, rfl, by decide, by decide, by decide, fun n hn hblock => ?_⟩
  obtain rfl : n = Node.new 0 "body" := by simpa [Element.nodes, Element.nodesOf] using hn
  obtain ⟨name, -, hnamed⟩ := hblock
  simp [Node.named, Node.attribute?, Node.new] at hnamed

def Sample.fault : Fault := .of ⟨Exit.invalidOpcode, by decide⟩ "PONG"

theorem refinement_law_of_fault :
    Sample.page.Proper ∧ (∀ name ∈ blockIds, Sample.page.blocks name = []) ∧
    ∃ d r, Reached Sample.page [.renderFault Sample.fault, .createDisplay default] d r true ∧
      RefinementLaw [.renderFault Sample.fault, .createDisplay default] d r true := by
  have hbare : ∀ name ∈ blockIds, Sample.page.blocks name = [] := by decide
  have hstart : Reached Sample.page [] .new Sample.page true := .start
  obtain ⟨d, r, hdisplay, hf⟩ := hstart.ask_working rfl (.createDisplay default)
  have hr := (hdisplay.depicts Sample.page_proper).proper
  have hf' : (r.addCanvases 1 false).failures = [] :=
    (Realm.Kept.addCanvases r 1 false).failures.trans hf
  obtain ⟨e, s, hfault, -⟩ := (hdisplay.page (.addCanvases hr 1 false)).ask_working hf'
    (.renderFault Sample.fault)
  exact ⟨Sample.page_proper, hbare, e, s, hfault,
    refinement_law Sample.page_proper hbare hfault⟩

end DocumentSurface

end Chip8Frame.Browser
