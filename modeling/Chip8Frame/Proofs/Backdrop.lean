import Chip8Frame.Browser.DocumentSurface

/-! What work on a document leaves alone in a realm: the surroundings, which the page decides, the
listeners, and the closures behind them. Every step of the document surface and of a guest that
draws is shown to keep them, key capture apart. -/

namespace Chip8Frame.Browser

/-- What the page around the frame decides is the same. -/
structure Realm.SameView (r r' : Realm) : Prop where
  hasWindow : r'.hasWindow = r.hasWindow
  innerWidth : r'.innerWidth = r.innerWidth
  frame : r'.frame.map Element.node = r.frame.map Element.node
  failures : r'.failures = r.failures

structure Realm.Steady (r r' : Realm) : Prop extends Realm.SameView r r' where
  listeners : r'.listeners = r.listeners

structure Realm.Kept (r r' : Realm) : Prop extends Realm.Steady r r' where
  closures : r'.closures = r.closures
  nextClosure : r'.nextClosure = r.nextClosure

namespace Realm

variable {r s t : Realm}

theorem SameView.refl (r : Realm) : SameView r r := ⟨rfl, rfl, rfl, rfl⟩

theorem SameView.trans (h : SameView r s) (k : SameView s t) : SameView r t where
  hasWindow := k.hasWindow.trans h.hasWindow
  innerWidth := k.innerWidth.trans h.innerWidth
  frame := k.frame.trans h.frame
  failures := k.failures.trans h.failures

namespace Steady

theorem refl (r : Realm) : Steady r r := ⟨.refl r, rfl⟩

theorem trans (h : Steady r s) (k : Steady s t) : Steady r t where
  toSameView := h.toSameView.trans k.toSameView
  listeners := k.listeners.trans h.listeners

theorem newClosure (r : Realm) (h : Handler) : Steady r (r.newClosure h).2 :=
  ⟨⟨rfl, rfl, rfl, rfl⟩, rfl⟩

theorem dropClosure (r : Realm) (n : Nat) : Steady r (r.dropClosure n) :=
  ⟨⟨rfl, rfl, rfl, rfl⟩, rfl⟩

end Steady

theorem report_eq (r : Realm) (n : Log.Notice) : ∃ events, r.report n = { r with events } := by
  have hlines : ∀ (ls : List Console.Line) (r : Realm), ∃ events,
      ls.foldl (fun r line => r.record (.console line)) r = { r with events } := by
    intro ls
    induction ls with
    | nil => exact fun r => ⟨r.events, rfl⟩
    | cons line ls ih => exact fun r => ih (r.record (.console line))
  simp only [report]
  split
  · exact ⟨_, rfl⟩
  · split
    · exact hlines _ r
    · exact ⟨r.events, rfl⟩

namespace Kept

theorem refl (r : Realm) : Kept r r := ⟨.refl r, rfl, rfl⟩

theorem trans (h : Kept r s) (k : Kept s t) : Kept r t where
  toSteady := h.toSteady.trans k.toSteady
  closures := k.closures.trans h.closures
  nextClosure := k.nextClosure.trans h.nextClosure

theorem foldl {α : Type} {f : Realm → α → Realm} (h : ∀ r a, Kept r (f r a)) (as : List α)
    (r : Realm) : Kept r (as.foldl f r) := by
  induction as generalizing r with
  | nil => exact .refl r
  | cons a as ih => exact (h r a).trans (ih _)

theorem record (r : Realm) (e : Event) : Kept r (r.record e) :=
  ⟨⟨⟨rfl, rfl, rfl, rfl⟩, rfl⟩, rfl, rfl⟩

theorem openConsole (r : Realm) (c : Log.Threshold) : Kept r (r.openConsole c) :=
  ⟨⟨⟨rfl, rfl, rfl, rfl⟩, rfl⟩, rfl, rfl⟩

theorem report (r : Realm) (n : Log.Notice) : Kept r (r.report n) := by
  obtain ⟨events, he⟩ := r.report_eq n
  rw [he]
  exact ⟨⟨⟨rfl, rfl, rfl, rfl⟩, rfl⟩, rfl, rfl⟩

theorem newNode (r : Realm) (tag : String) : Kept r (r.newNode tag).2 :=
  ⟨⟨⟨rfl, rfl, rfl, rfl⟩, rfl⟩, rfl, rfl⟩

theorem appendToBody (r : Realm) (e : Element) : Kept r (r.appendToBody e) := by
  unfold Realm.appendToBody
  split
  · exact ⟨⟨⟨rfl, rfl, rfl, rfl⟩, rfl⟩, rfl, rfl⟩
  · exact .refl r

theorem addCanvas (r : Realm) : Kept r r.addCanvas :=
  (newNode r "canvas").trans (.appendToBody _ _)

theorem addCanvasTo (r : Realm) (parent : Node) : Kept r (r.addCanvasTo parent) :=
  ⟨⟨⟨rfl, rfl, rfl, rfl⟩, rfl⟩, rfl, rfl⟩

theorem addCanvases (r : Realm) (count : Nat) (nested : Bool) :
    Kept r (r.addCanvases count nested) := by
  unfold Realm.addCanvases
  split
  · exact .refl r
  · split
    · have hb := (newNode r "div").trans (.appendToBody _ (.mk (r.newNode "div").1 []))
      exact hb.trans (.foldl (fun r _ => .addCanvasTo r _) _ _)
    · exact .foldl (fun r _ => .addCanvas r) _ r

/-- An element that frames the document lies in no tree of it, so it is not taken out itself. -/
theorem removeElement (r : Realm) (id : Nat) : Kept r (r.removeElement id) := by
  have hnode : ∀ e : Element, (e.remove id).node = e.node := fun ⟨_, _⟩ => rfl
  unfold Realm.removeElement
  split
  · refine ⟨⟨⟨rfl, rfl, ?_, rfl⟩, rfl⟩, rfl, rfl⟩
    cases r.frame with
    | none => simp [Realm.record]
    | some e => simp [Realm.record, hnode]
  · exact .refl r

end Kept

end Realm

/-! Calls into the browser. -/

namespace Browsing

/-- Whether or not it throws, the call keeps what it is given. -/
def Keeps {α : Type} (x : Browsing α) : Prop := ∀ r, Realm.Kept r (x r).2

section Calls

variable {α β : Type}

theorem bind_eq (x : Browsing α) (f : α → Browsing β) (r : Realm) :
    (x >>= f) r = match x r with
      | (.ok a, s) => f a s
      | (.error v, s) => (.error v, s) := by
  show (ExceptT.bindCont f (x r).1 : StateM Realm _) (x r).2 = _
  rcases x r with ⟨_ | _, _⟩ <;> rfl

theorem Keeps.bind {x : Browsing α} {f : α → Browsing β} (hx : x.Keeps) (hf : ∀ a, (f a).Keeps) :
    (x >>= f).Keeps := by
  intro r
  have hr := hx r
  rw [bind_eq]
  rcases hxr : x r with ⟨v | a, s⟩
  · simpa [hxr] using hr
  · exact (by simpa [hxr] using hr : Realm.Kept r s).trans (hf a s)

theorem Keeps.pure (a : α) : (pure a : Browsing α).Keeps := fun r => .refl r

theorem attempt_eq (call : String) (argument : Option String) (r : Realm) :
    attempt call argument r = ((r.failure? call argument).elim (.ok ()) .error, r) := by
  have hget : (get : Browsing Realm) r = (.ok r, r) := rfl
  rw [attempt, bind_eq, hget]
  cases hf : r.failure? call argument <;> simp only [hf] <;> rfl

theorem attempt_cases (call : String) (argument : Option String) (f : Unit → Browsing α)
    (r : Realm) :
    (∃ v, (attempt call argument >>= f) r = (.error v, r)) ∨
      (attempt call argument >>= f) r = f () r := by
  rw [bind_eq, attempt_eq]
  cases r.failure? call argument with
  | none => exact .inr rfl
  | some v => exact .inl ⟨v, rfl⟩

theorem Keeps.attempt (call : String) (argument : Option String) :
    (attempt call argument).Keeps := by
  intro r
  rw [attempt_eq]
  exact .refl r

theorem createElement_keeps (tag : String) : (createElement tag).Keeps :=
  .bind (.attempt _ _) fun _ r => .newNode r tag

theorem setAttributeOf_keeps (n : Node) (name value : String) :
    (setAttributeOf n name value).Keeps :=
  .bind (.attempt _ _) fun _ => .bind (fun r => .record r _) fun _ => .pure _

theorem appendToBody_keeps (e : Element) : (appendToBody e).Keeps :=
  .bind (.attempt _ _) fun _ r => .appendToBody r e

theorem queryCanvases_keeps : queryCanvases.Keeps :=
  .bind (.attempt _ _) fun _ r => .refl r

def reported (notice : Value → Log.Notice) : Except Value α × Realm → Realm
  | (.ok _, r) => r
  | (.error v, r) => r.report (notice v)

theorem reported_kept {x : Except Value α × Realm} {r : Realm} (hx : Realm.Kept r x.2)
    (notice : Value → Log.Notice) : Realm.Kept r (reported notice x) := by
  obtain ⟨_ | _, s⟩ := x
  · exact hx.trans (.report s _)
  · exact hx

theorem listen_eq (l : Listener) (r : Realm) :
    listen l r = match r.failure? "add_event_listener" (some l.type) with
      | some v => (.error v, r)
      | none => (.ok (), { r with listeners := r.listeners ++ [l] }.record
          (.listen l.target.label l.type)) := by
  rw [listen, bind_eq, attempt_eq]
  cases r.failure? "add_event_listener" (some l.type) <;> rfl

theorem frameElement_fst (r : Realm) :
    (frameElement r).1 = match r.failure? "frame_element" none with
      | some v => .error v
      | none => .ok (r.frame.map Element.node) := by
  rw [frameElement, bind_eq, attempt_eq]
  cases r.failure? "frame_element" none <;> rfl

theorem innerWidth_fst (r : Realm) :
    (innerWidth r).1 = match r.failure? "inner_width" none with
      | some v => .error v
      | none => .ok r.innerWidth := by
  rw [innerWidth, bind_eq, attempt_eq]
  cases r.failure? "inner_width" none <;> rfl

end Calls

end Browsing

theorem Realm.SameView.failure? {r s : Realm} (h : Realm.SameView r s) (call : String)
    (argument : Option String) : s.failure? call argument = r.failure? call argument := by
  simp only [Realm.failure?, h.failures]

theorem Realm.SameView.frameElement {r s : Realm} (h : Realm.SameView r s) :
    (Browsing.frameElement s).1 = (Browsing.frameElement r).1 := by
  rw [Browsing.frameElement_fst, Browsing.frameElement_fst, h.failure?, h.frame]

theorem Realm.SameView.innerWidth_fst {r s : Realm} (h : Realm.SameView r s) :
    (Browsing.innerWidth s).1 = (Browsing.innerWidth r).1 := by
  rw [Browsing.innerWidth_fst, Browsing.innerWidth_fst, h.failure?, h.innerWidth]

/-! The document surface. -/

namespace DocumentSurface

open Browsing (Keeps)

theorem addTextBlock_keeps (id text : String) : (addTextBlock id text).Keeps :=
  .bind (Browsing.createElement_keeps _) fun _ =>
    .bind (Browsing.setAttributeOf_keeps _ _ _) fun _ =>
      .bind (Browsing.setAttributeOf_keeps _ _ _) fun _ =>
        .bind (Browsing.appendToBody_keeps _) fun _ => .pure _

theorem removeCanvases_keeps : removeCanvases.Keeps :=
  .bind Browsing.queryCanvases_keeps fun _ =>
    .bind (fun r => .foldl (fun r _ => .removeElement r _) _ r) fun _ => .pure _

theorem removeBlock_kept (r : Realm) (block : Option Nat) : Realm.Kept r (removeBlock r block) := by
  cases block with
  | none => exact .refl r
  | some id => exact .removeElement r id

/-- The block that is held after an attempt to add another one. -/
def held (old : Option Nat) : Except Value Nat → Option Nat
  | .ok n => some n
  | .error _ => old

theorem mountDiagnostic_eq (s : DocumentSurface) (text : String) (r : Realm) :
    s.mountDiagnostic text r =
      ({ s with diagnostic := held s.diagnostic (addTextBlock diagnosticId text r).1 },
        Browsing.reported (fun v => .diagnosticFailed v.inDebug)
          (addTextBlock diagnosticId text r)) := by
  unfold mountDiagnostic
  rcases addTextBlock diagnosticId text r with ⟨_ | _, _⟩ <;> rfl

theorem mountBanner_eq (s : DocumentSurface) (text : String) (r : Realm) :
    s.mountBanner text r =
      ({ s with banner := held s.banner (addTextBlock bannerId text r).1 },
        Browsing.reported (fun v => .bannerFailed v.inDebug) (addTextBlock bannerId text r)) := by
  unfold mountBanner
  rcases addTextBlock bannerId text r with ⟨_ | _, _⟩ <;> rfl

theorem unmountDisplay_kept (s : DocumentSurface) (r : Realm) :
    Realm.Kept r (s.unmountDisplay r).2 := by
  have hk := removeCanvases_keeps r
  simp only [unmountDisplay]
  split
  · next he => exact (by simpa [he] using hk : Realm.Kept r _).trans (.report _ _)
  · next he => exact (by simpa [he] using hk : Realm.Kept r _).trans (.report _ _)

theorem perform_kept (s : DocumentSurface) {call : Surface.Call} (hc : call ≠ .captureKeys)
    (r : Realm) : Realm.Kept r (s.perform call r).2 := by
  cases call with
  | mountDisplay w h => exact .report r _
  | mountDiagnostic text =>
    rw [perform, mountDiagnostic_eq]
    exact Browsing.reported_kept (addTextBlock_keeps _ _ r) _
  | unmount kind =>
    cases kind with
    | display => exact s.unmountDisplay_kept r
    | diagnostic => exact removeBlock_kept r _
  | mountBanner text =>
    rw [perform, mountBanner_eq]
    exact Browsing.reported_kept (addTextBlock_keeps _ _ r) _
  | unmountBanner => exact removeBlock_kept r _
  | captureKeys => exact absurd rfl hc

@[simp] theorem apply_nil (s : DocumentSurface) (r : Realm) : s.apply [] r = (s, r) := rfl

@[simp] theorem apply_note (s : DocumentSurface) (n : Log.Notice) (es : List Effect) (r : Realm) :
    s.apply (.note n :: es) r = s.apply es (r.report n) := rfl

@[simp] theorem apply_surface (s : DocumentSurface) (call : Surface.Call) (es : List Effect)
    (r : Realm) :
    s.apply (.surface call :: es) r = (s.perform call r).1.apply es (s.perform call r).2 := rfl

theorem apply_append (s : DocumentSurface) (es fs : List Effect) (r : Realm) :
    s.apply (es ++ fs) r = (s.apply es r).1.apply fs (s.apply es r).2 := by
  simp only [apply, List.foldl_append]

theorem apply_kept (s : DocumentSurface) {es : List Effect}
    (hc : Effect.surface .captureKeys ∉ es) (r : Realm) : Realm.Kept r (s.apply es r).2 := by
  induction es generalizing s r with
  | nil => exact .refl r
  | cons e es ih =>
    have hes : Effect.surface .captureKeys ∉ es := fun h => hc (List.mem_cons_of_mem _ h)
    cases e with
    | note n => exact (Realm.Kept.report r n).trans (ih s hes _)
    | surface call =>
      have hne : call ≠ .captureKeys := by
        rintro rfl
        exact hc List.mem_cons_self
      exact (s.perform_kept hne r).trans (ih _ hes _)

theorem apply_of_silent (s : DocumentSurface) {es : List Effect} (h : ∀ call, .surface call ∉ es)
    (r : Realm) : (s.apply es r).1 = s := by
  induction es generalizing r with
  | nil => rfl
  | cons e es ih =>
    cases e with
    | note n => exact ih (fun call hc => h call (List.mem_cons_of_mem _ hc)) _
    | surface call => exact absurd List.mem_cons_self (h call)

end DocumentSurface

end Chip8Frame.Browser
