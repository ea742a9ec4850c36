import Chip8Frame.Proofs.Depicted

/-! The canvases of a document under one manager. A guest draws while its display is live: it does
to the document whatever it likes, below the top. The end of the display takes every canvas away,
wherever it lies, and nothing that the surface does brings one. -/

namespace Chip8Frame.Browser

open Surface (Call Manager Operation)

namespace Realm

/-- The document has the same element at its top. Below it canvases may have come at any place,
inside other elements and inside each other. -/
def Redrawn (r s : Realm) : Prop := s.body.map Element.node = r.body.map Element.node

/-- The document has no canvas that was not there before. -/
structure Undrawn (r s : Realm) : Prop where
  top : r.Redrawn s
  canvases : s.canvases ⊆ r.canvases

variable {r s t : Realm}

theorem topped_of_canvases_eq_nil (h : r.canvases = []) : r.Topped := by
  intro b hb htag
  have htop : b.node ∈ r.canvases := (mem_canvases hb).mpr ⟨by simp [Element.nodes_eq], htag⟩
  simp [h] at htop

namespace Redrawn

theorem refl (r : Realm) : Redrawn r r := rfl

theorem trans (h : Redrawn r s) (k : Redrawn s t) : Redrawn r t := Eq.trans k h

theorem topped (h : Redrawn r s) (hr : r.Topped) : s.Topped := by
  intro c hc
  have htop := h
  rw [Redrawn, hc, Option.map_some, eq_comm, Option.map_eq_some_iff] at htop
  obtain ⟨b, hb, he⟩ := htop
  exact he ▸ hr b hb

theorem of_map {f : Element → Element} (hf : ∀ b, (f b).node = b.node)
    (h : s.body = r.body.map f) : Redrawn r s := by
  rw [Redrawn, h, Option.map_map]
  congr 1
  exact funext hf

theorem append {parent : Nat} {child : Element}
    (h : s.body = r.body.map (Element.append parent child)) : Redrawn r s :=
  of_map (Element.node_append parent child) h

theorem appendToBody (r : Realm) (e : Element) : Redrawn r (r.appendToBody e) :=
  of_map (fun b => b.node_push e) (body_appendToBody r e)

theorem removeElement (r : Realm) (id : Nat) : Redrawn r (r.removeElement id) :=
  of_map (Element.node_remove id) (body_removeElement r id)

theorem foldl {α : Type} {f : Realm → α → Realm} (hf : ∀ r a, Redrawn r (f r a)) (as : List α)
    (r : Realm) : Redrawn r (as.foldl f r) := by
  induction as generalizing r with
  | nil => exact .refl r
  | cons a as ih => exact (hf r a).trans (ih _)

theorem addCanvases (r : Realm) (count : Nat) (nested : Bool) :
    Redrawn r (r.addCanvases count nested) := by
  unfold Realm.addCanvases
  split
  · exact .refl r
  · split
    · have hbox : Redrawn r ((r.newNode "div").2.appendToBody (.mk (r.newNode "div").1 [])) :=
        .appendToBody (r.newNode "div").2 _
      exact hbox.trans (.foldl (fun r _ => .append rfl) _ _)
    · exact .foldl (fun r _ => .appendToBody (r.newNode "canvas").2 _) _ r

end Redrawn

namespace Undrawn

theorem of_body (hb : s.body = r.body) : Undrawn r s where
  top := by rw [Redrawn, hb]
  canvases := by
    rw [Realm.canvases, Realm.canvases, hb]
    exact List.Subset.refl _

theorem refl (r : Realm) : Undrawn r r := of_body rfl

theorem trans (h : Undrawn r s) (k : Undrawn s t) : Undrawn r t where
  top := h.top.trans k.top
  canvases := List.Subset.trans k.canvases h.canvases

theorem empty (h : Undrawn r s) (hr : r.canvases = []) : s.canvases = [] :=
  List.subset_nil.mp (hr ▸ h.canvases)

theorem report (r : Realm) (n : Log.Notice) : Undrawn r (r.report n) := by
  obtain ⟨events, he⟩ := r.report_eq n
  rw [he]
  exact of_body rfl

theorem removeElement (hr : r.Topped) (id : Nat) : Undrawn r (r.removeElement id) where
  top := .removeElement r id
  canvases _ hn := (hr.mem_canvases_removeElement hn).1

theorem removeEach (hr : r.Topped) (cs : List Node) :
    Undrawn r (cs.foldl (fun r c => r.removeElement c.id) r) where
  top := .foldl (fun r c => .removeElement r c.id) cs r
  canvases _ hn := (hr.mem_canvases_removeEach hn).1

theorem push {n : Node} (ht : n.tag ≠ "canvas") (hb : s.body = r.body.map (·.push (.mk n []))) :
    Undrawn r s where
  top := .of_map (fun b => b.node_push _) hb
  canvases m hm := by
    cases hr : r.body with
    | none => simp [Realm.canvases, hb, hr] at hm
    | some b =>
      rw [hr, Option.map_some] at hb
      obtain ⟨hm, htag⟩ := (mem_canvases hb).mp hm
      rw [Element.nodes_push, List.mem_append, List.mem_singleton] at hm
      exact (mem_canvases hr).mpr ⟨hm.resolve_right fun he => ht (he ▸ htag), htag⟩

end Undrawn

end Realm

namespace DocumentSurface

variable {r : Realm} {d : DocumentSurface}

section Calls

theorem addTextBlock_undrawn (name text : String) (r : Realm) :
    r.Undrawn (addTextBlock name text r).2 := by
  rcases addTextBlock_cases name text r with ⟨v, s, he, hb, -⟩ | ⟨s, he, hb, -⟩ <;> rw [he]
  · exact .of_body hb
  · exact .push (show "pre" ≠ "canvas" by decide) hb

theorem reported_undrawn {α : Type} {x : Except Value α × Realm} (hu : r.Undrawn x.2)
    (notice : Value → Log.Notice) : r.Undrawn (Browsing.reported notice x) := by
  obtain ⟨_ | _, s⟩ := x
  · exact hu.trans (.report s _)
  · exact hu

theorem removeCanvases_undrawn (hr : r.Topped) : r.Undrawn (removeCanvases r).2 := by
  rcases removeCanvases_cases r with ⟨v, he⟩ | he <;> rw [he]
  · exact .refl r
  · exact .removeEach hr r.canvases

theorem unmountDisplay_undrawn (hr : r.Topped) (d : DocumentSurface) :
    r.Undrawn (d.unmountDisplay r).2 := by
  have hu := removeCanvases_undrawn hr
  unfold unmountDisplay
  split <;> next he =>
    rw [he] at hu
    exact hu.trans (.report _ _)

theorem removeBlock_undrawn (hr : r.Topped) (block : Option Nat) :
    r.Undrawn (removeBlock r block) := by
  cases block with
  | none => exact .refl r
  | some id => exact .removeElement hr id

theorem perform_undrawn (hr : r.Topped) (d : DocumentSurface) (call : Call) :
    r.Undrawn (d.perform call r).2 := by
  cases call with
  | mountDisplay width height => exact .report r _
  | mountDiagnostic text =>
    rw [perform, mountDiagnostic_eq]
    exact reported_undrawn (addTextBlock_undrawn _ _ r) _
  | unmount kind =>
    cases kind with
    | display => exact unmountDisplay_undrawn hr d
    | diagnostic => exact removeBlock_undrawn hr d.diagnostic
  | mountBanner text =>
    rw [perform, mountBanner_eq]
    exact reported_undrawn (addTextBlock_undrawn _ _ r) _
  | unmountBanner => exact removeBlock_undrawn hr d.banner
  | captureKeys => exact .of_body (captureKeys_spec d r).2.1

theorem apply_undrawn (hr : r.Topped) (d : DocumentSurface) (es : List Effect) :
    r.Undrawn (d.apply es r).2 := by
  induction es generalizing d r with
  | nil => exact .refl r
  | cons e es ih =>
    cases e with
    | note n =>
      have hu := Realm.Undrawn.report r n
      exact hu.trans (ih (hu.top.topped hr) d)
    | surface call =>
      have hu := perform_undrawn hr d call
      exact hu.trans (ih (hu.top.topped hr) (d.perform call r).1)

end Calls

theorem applySucceeds_append (d : DocumentSurface) (es fs : List Effect) (r : Realm) :
    d.applySucceeds (es ++ fs) r =
      (d.applySucceeds es r && (d.apply es r).1.applySucceeds fs (d.apply es r).2) := by
  induction es generalizing d r with
  | nil => rfl
  | cons e es ih =>
    cases e with
    | note n => exact ih d (r.report n)
    | surface call =>
      rw [List.cons_append, applySucceeds, applySucceeds, ih, Bool.and_assoc]
      rfl

/-- There is no canvas, unless a display is live. -/
def Bare (m : Manager) (r : Realm) : Prop := m.live ≠ some .display → r.canvases = []

section Operations

variable {m : Manager}

theorem clear_canvases (hr : r.Topped) (hb : Bare m r) (d : DocumentSurface)
    (hs : d.applySucceeds m.clear.effects r = true) :
    (d.apply m.clear.effects r).2.canvases = [] := by
  by_cases hl : m.live = some .display
  · have he : m.clear.effects =
        [.note (.removingSurface .display), .surface (.unmount .display)] := by
      simp [Manager.clear, hl]
    rw [he] at hs ⊢
    have hreport := Realm.Undrawn.report r (.removingSurface .display)
    have hok : (removeCanvases (r.report (.removingSurface .display))).1.isOk = true := by
      simpa [applySucceeds, succeeds] using hs
    exact unmountDisplay_empties (hreport.top.topped hr) d hok
  · exact (apply_undrawn hr d m.clear.effects).empty (hb hl)

theorem mount_canvases (hr : r.Topped) (hb : Bare m r) (d : DocumentSurface) (call : Call)
    (hs : d.applySucceeds (m.clear.effects ++ [.surface call]) r = true) :
    (d.apply (m.clear.effects ++ [.surface call]) r).2.canvases = [] := by
  rw [applySucceeds_append, Bool.and_eq_true] at hs
  have hclear := clear_canvases hr hb d hs.1
  have htop := (apply_undrawn hr d m.clear.effects).top.topped hr
  rw [apply_append]
  exact (apply_undrawn htop _ _).empty hclear

theorem change_bare (hr : r.Topped) (hb : Bare m r) (d : DocumentSurface) (op : Operation)
    (hs : d.applySucceeds (op.change m).effects r = true) :
    Bare (op.change m).manager (d.apply (op.change m).effects r).2 := by
  have hkept (he : (op.change m).manager.live = m.live) :
      Bare (op.change m).manager (d.apply (op.change m).effects r).2 :=
    fun hl => (apply_undrawn hr d _).empty (hb (he ▸ hl))
  cases op with
  | createDisplay c => exact fun _ => mount_canvases hr hb d _ hs
  | renderFault f => exact fun _ => mount_canvases hr hb d _ hs
  | clear => exact fun _ => clear_canvases hr hb d hs
  | showBanner v =>
    refine hkept ?_
    simp only [Operation.change, Manager.showBanner]
    split <;> rfl
  | removeBanner =>
    refine hkept ?_
    simp only [Operation.change, Manager.removeBanner]
    split <;> rfl
  | bindCapture =>
    refine hkept ?_
    simp only [Operation.change, Manager.bindCapture]
    split <;> rfl

end Operations

/-- What the operations of a manager on a new surface make of a document, newest first, where no
call into the browser fails. In between a guest draws while its display is live, and others change
the document without adding canvases. -/
inductive Drawn (r₀ : Realm) : List Operation → DocumentSurface → Realm → Prop where
  | start : Drawn r₀ [] .new r₀
  | ask {ops : List Operation} {d : DocumentSurface} {r : Realm} (op : Operation)
      (h : Drawn r₀ ops d r)
      (hs : d.applySucceeds (op.change (Manager.after ops)).effects r = true) :
      Drawn r₀ (op :: ops) (d.apply (op.change (Manager.after ops)).effects r).1
        (d.apply (op.change (Manager.after ops)).effects r).2
  | draw {ops : List Operation} {d : DocumentSurface} {r s : Realm} (h : Drawn r₀ ops d r)
      (hl : (Manager.after ops).live = some .display) (hd : r.Redrawn s) : Drawn r₀ ops d s
  | page {ops : List Operation} {d : DocumentSurface} {r s : Realm} (h : Drawn r₀ ops d r)
      (hu : r.Undrawn s) : Drawn r₀ ops d s

namespace Drawn

variable {r₀ : Realm} {ops : List Operation}

theorem topped (h : Drawn r₀ ops d r) (hr : r₀.Topped) : r.Topped := by
  induction h with
  | start => exact hr
  | ask op _ _ ih => exact (apply_undrawn ih _ _).top.topped ih
  | draw _ _ hd ih => exact hd.topped ih
  | page _ hu ih => exact hu.top.topped ih

theorem bare (h : Drawn r₀ ops d r) (hr : r₀.canvases = []) : Bare (Manager.after ops) r := by
  have htop := Realm.topped_of_canvases_eq_nil hr
  induction h with
  | start => exact fun _ => hr
  | ask op h hs ih => exact change_bare (h.topped htop) ih _ op hs
  | draw _ hl _ _ => exact fun hn => absurd hl hn
  | page _ hu ih => exact fun hl => hu.empty (ih hl)

end Drawn

/-- What holds of a document that held no canvas at first, after the operations. -/
structure CanvasLaw (ops : List Operation) (d : DocumentSurface) (r : Realm) : Prop where
  hidden : (Manager.after ops).live ≠ some .display → r.canvases = []
  /-- A display that is created next starts without canvases, whatever was live. -/
  created : ∀ c : Boot.Config,
    d.applySucceeds ((Operation.createDisplay c).change (Manager.after ops)).effects r = true →
    (d.apply ((Operation.createDisplay c).change (Manager.after ops)).effects r).2.canvases = []

theorem canvas_law {r₀ : Realm} {ops : List Operation} (hr : r₀.canvases = [])
    (h : Drawn r₀ ops d r) : CanvasLaw ops d r where
  hidden := h.bare hr
  created _ hs := mount_canvases (h.topped (Realm.topped_of_canvases_eq_nil hr)) (h.bare hr) d _ hs

def Sample.shown : DocumentSurface × Realm :=
  DocumentSurface.new.apply ((Operation.createDisplay default).change .new).effects Sample.page

def Sample.sketched : Realm := Sample.shown.2.addCanvases 2 true

/-- A guest draws on two canvases in an element of its own, and a fault takes their place. -/
theorem canvas_law_of_sketched :
    Sample.page.canvases = [] ∧ Sample.sketched.canvases.length = 2 ∧
    Drawn Sample.page [.createDisplay default] Sample.shown.1 Sample.sketched ∧
    ∃ d r, Drawn Sample.page [.renderFault Sample.fault, .createDisplay default] d r ∧
      CanvasLaw [.renderFault Sample.fault, .createDisplay default] d r := by
  obtain ⟨hs, hf⟩ := applySucceeds_of_working (r := Sample.page) rfl .new
    ((Operation.createDisplay default).change .new).effects
  have hshown : Drawn Sample.page [.createDisplay default] Sample.shown.1 Sample.shown.2 :=
    Drawn.start.ask (.createDisplay default) hs
  have hsketched : Drawn Sample.page [.createDisplay default] Sample.shown.1 Sample.sketched :=
    hshown.draw rfl (.addCanvases _ 2 true)
  obtain ⟨hs', -⟩ := applySucceeds_of_working
    ((Realm.Kept.addCanvases Sample.shown.2 2 true).failures.trans hf) Sample.shown.1
    ((Operation.renderFault Sample.fault).change (Manager.after [.createDisplay default])).effects
  have hfault := hsketched.ask (.renderFault Sample.fault) hs'
  exact ⟨rfl, by decide +kernel, hsketched, _, _, hfault, canvas_law rfl hfault⟩

end DocumentSurface

end Chip8Frame.Browser
