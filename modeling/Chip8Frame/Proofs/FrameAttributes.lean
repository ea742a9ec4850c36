import Mathlib.Data.List.Basic
import Chip8Frame.Browser.Page
import Chip8Frame.Proofs.Backdrop
import Chip8Frame.Proofs.FrameCalls

/-! The attributes of a hosting frame, which outlive the contexts that it loads. What a frame owes a
controller is stated for any frame, and is shown of an iframe of a page. -/

namespace Chip8Frame

theorem lookup_cons_ite {β : Type} (k : String) (v : β) (es : List (String × β)) (m : String) :
    ((k, v) :: es).lookup m = if m = k then some v else es.lookup m := by
  rw [List.lookup_cons]
  by_cases hm : m = k
  · rw [if_pos hm, hm, beq_self_eq_true]
  · rw [if_neg hm, beq_false_of_ne hm]

end Chip8Frame

namespace Chip8Frame.Control

def FrameCall.write? : FrameCall → Option (String × Option String)
  | setAttribute name value => some (name, some value)
  | removeAttribute name => some (name, none)
  | post _ | recreate => none

def FrameCall.written (call : FrameCall) (attributes : String → Option String) :
    String → Option String :=
  match call.write? with
  | some (name, value) => Function.update attributes name value
  | none => attributes

/-- A frame whose attributes can be read. A call that succeeds writes what it says, a call that
fails writes nothing. -/
class Readable (φ : Type) [HostFrame φ] where
  /-- The frame is there to be read. -/
  Present : φ → Prop
  attribute? : φ → String → Option String
  note {f : φ} (n : Log.Notice) : Present f →
    Present (HostFrame.note n f) ∧ attribute? (HostFrame.note n f) = attribute? f
  blur {f : φ} : Present f →
    Present (HostFrame.blur f) ∧ attribute? (HostFrame.blur f) = attribute? f
  made {f g : φ} {call : FrameCall} : Present f → HostFrame.perform call f = (.ok (), g) →
    Present g ∧ attribute? g = call.written (attribute? f)
  failed {f g : φ} {call : FrameCall} {reason : String} : Present f →
    HostFrame.perform call f = (.error reason, g) → Present g ∧ attribute? g = attribute? f

export Readable (Present attribute?)

def carried {φ : Type} [HostFrame φ] [Readable φ] (f : φ) : Boot.Parameters :=
  Boot.Parameters.ofAttributes (attribute? f)

def Bare {φ : Type} [HostFrame φ] [Readable φ] (f : φ) : Prop :=
  ∀ name ∈ Boot.Parameters.attributeNames, attribute? f name = none

section Delivery

variable {φ : Type} [HostFrame φ] [Readable φ]

theorem Made.attributes {f k : φ} {calls : List FrameCall} (h : Made f calls k) (hf : Present f) :
    Present k ∧ attribute? k = calls.foldl (fun a call => call.written a) (attribute? f) := by
  induction h with
  | nil => exact ⟨hf, rfl⟩
  | cons first _ ih =>
    obtain ⟨hg, ha⟩ := Readable.made hf first
    obtain ⟨hk, hr⟩ := ih hg
    exact ⟨hk, by rw [hr, ha, List.foldl_cons]⟩

theorem deliveryCalls_attributes (p : Boot.Parameters) :
    ∃ sets, deliveryCalls .attributes p = sets ++ [.recreate] ∧
      sets.filterMap FrameCall.write? = p.toAttributes ∧ .recreate ∉ sets := by
  refine ⟨_, rfl, ?_, ?_⟩
  · rw [List.filterMap_map]
    refine (List.filterMap_congr fun x _ => ?_).trans List.filterMap_some
    obtain ⟨name, _ | value⟩ := x <;> rfl
  · intro hm
    obtain ⟨⟨name, _ | value⟩, -, hx⟩ := List.mem_map.mp hm <;> cases hx

/-- Whatever it carried before, a frame carries the parameters whose attributes were written. -/
theorem Made.carried {f k : φ} {calls : List FrameCall} (h : Made f calls k) (hf : Present f)
    {p : Boot.Parameters} (hw : calls.filterMap FrameCall.write? = p.toAttributes) :
    carried k = p := by
  have hfold : ∀ a : String → Option String, calls.foldl (fun a call => call.written a) a =
      p.toAttributes.foldl (fun a x => Function.update a x.1 x.2) a := by
    intro a
    rw [← hw, List.foldl_filterMap]
    congr 1
    funext a call
    rw [FrameCall.written]
    cases call.write? <;> rfl
  obtain ⟨program, speed, foreground, background⟩ := p
  rw [Control.carried, (h.attributes hf).2, hfold]
  simp [Boot.Parameters.toAttributes, Boot.Parameters.ofAttributes,
    Boot.Parameters.programAttribute, Boot.Parameters.speedAttribute,
    Boot.Parameters.foregroundAttribute, Boot.Parameters.backgroundAttribute]

end Delivery

end Chip8Frame.Control

namespace Chip8Frame.Browser

namespace Node

theorem attribute?_removeAttribute (n : Node) (name m : String) :
    (n.removeAttribute name).attribute? m = if m = name then none else n.attribute? m := by
  show (n.attributes.filter (·.1 ≠ name)).lookup m = _
  rw [show n.attribute? m = n.attributes.lookup m from rfl]
  induction n.attributes with
  | nil => simp
  | cons a as ih =>
    obtain ⟨k, v⟩ := a
    by_cases hk : k = name
    · rw [List.filter_cons_of_neg (by simpa using hk), ih, lookup_cons_ite, hk]
      by_cases hm : m = name
      · rw [if_pos hm, if_pos hm]
      · rw [if_neg hm, if_neg hm, if_neg hm]
    · rw [List.filter_cons_of_pos (by simpa using hk), lookup_cons_ite, lookup_cons_ite, ih]
      by_cases hm : m = k
      · rw [if_pos hm, if_pos hm, if_neg (hm ▸ hk)]
      · rw [if_neg hm, if_neg hm]

theorem attribute?_setAttribute (n : Node) (name value m : String) :
    (n.setAttribute name value).attribute? m = if m = name then some value else n.attribute? m := by
  have hr := n.attribute?_removeAttribute name m
  show ((n.removeAttribute name).attributes ++ [(name, value)]).lookup m = _
  rw [List.lookup_append]
  by_cases hm : m = name
  · rw [if_pos hm] at hr ⊢
    rw [show (n.removeAttribute name).attributes.lookup m = none from hr, hm]
    simp
  · rw [if_neg hm] at hr ⊢
    rw [show (n.removeAttribute name).attributes.lookup m = n.attribute? m from hr,
      lookup_cons_ite, if_neg hm]
    simp

end Node

namespace Element

variable (id : Nat) (f : Node → Node)

mutual

theorem nodes_update : ∀ e : Element,
    (update id f e).nodes = e.nodes.map fun n => if n.id = id then f n else n
  | mk node children => by
    simp only [update, nodes, List.map_cons, nodesOf_updateAll children]

theorem nodesOf_updateAll : ∀ es : List Element,
    nodesOf (updateAll id f es) = (nodesOf es).map fun n => if n.id = id then f n else n
  | [] => rfl
  | e :: es => by
    simp only [updateAll, nodesOf, List.map_append, nodes_update e, nodesOf_updateAll es]

end

theorem updateAll_eq_map (es : List Element) : updateAll id f es = es.map (update id f) := by
  induction es with
  | nil => rfl
  | cons e es ih => rw [updateAll, ih, List.map_cons]

end Element

namespace Realm

variable (r : Realm)

theorem trees_updateNode (id : Nat) (f : Node → Node) :
    (r.updateNode id f).trees = r.trees.map (Element.update id f) := by
  simp only [trees, updateNode, Element.updateAll_eq_map, List.map_append]
  cases r.body <;> cases r.frame <;> rfl

theorem node?_updateNode (id : Nat) {f : Node → Node} (hf : ∀ n, (f n).id = n.id) :
    (r.updateNode id f).node? id = (r.node? id).map f := by
  have hnodes : (r.updateNode id f).trees.flatMap Element.nodes =
      (r.trees.flatMap Element.nodes).map fun n => if n.id = id then f n else n := by
    rw [trees_updateNode, List.flatMap_map, List.map_flatMap]
    simp only [Element.nodes_update]
  have hid : ∀ n : Node, (if n.id = id then f n else n).id = n.id := by
    intro n
    by_cases hn : n.id = id
    · rw [if_pos hn, hf]
    · rw [if_neg hn]
  rw [node?, hnodes, List.find?_map]
  simp only [Function.comp_def, hid]
  show Option.map _ (r.node? id) = _
  cases hn : r.node? id with
  | none => rfl
  | some n =>
    have hnid : n.id = id := by simpa using List.find?_some hn
    simp [hnid]

theorem trees_report (n : Log.Notice) : (r.report n).trees = r.trees := by
  obtain ⟨events, he⟩ := r.report_eq n
  rw [he]
  rfl

theorem node?_report (n : Log.Notice) (id : Nat) : (r.report n).node? id = r.node? id := by
  rw [node?, node?, trees_report]

end Realm

/-- The call throws and leaves the realm as it is, or it changes the realm in this way. -/
def Browsing.Does (call : Browsing Unit) (change : Realm → Realm) : Prop :=
  ∀ r, (∃ v, call r = (.error v, r)) ∨ call r = (.ok (), change r)

theorem Browsing.Does.attempt (call : String) (argument : Option String) (change : Realm → Realm) :
    Does (do attempt call argument; modify change) change :=
  fun r => attempt_cases call argument _ r

namespace FrameHandle

open Control (FrameCall HostFrame Readable)

def node? (h : FrameHandle) : Option Node := h.realm.node? h.frame

theorem node?_blurActive (r : Realm) (id : Nat) : (blurActive r).node? id = r.node? id := by
  unfold blurActive
  split
  · next n _ =>
    split
    · have hd : (Browsing.blur n.id).Does _ := .attempt "blur" none _
      rcases hd r with ⟨v, hv⟩ | hv
      · rw [hv]
        exact r.node?_report _ id
      · rw [hv]
        rfl
    · rfl
  · rfl

section Attempts

variable {call : Browsing Unit} {change : Realm → Realm} (h : FrameHandle)

theorem attempt_cases (hc : call.Does change) :
    (∃ reason, h.attempt call = (.error reason, h)) ∨
      h.attempt call = (.ok (), { h with realm := change h.realm }) := by
  unfold attempt
  rcases hc h.realm with ⟨v, hv⟩ | hv
  · exact .inl ⟨v.describe, by rw [hv]⟩
  · exact .inr (by rw [hv])

theorem attemptInside_cases (hc : call.Does change) :
    (∃ reason, h.attemptInside call = (.error reason, h)) ∨
      h.attemptInside call = (.ok (), { h with realm := change h.realm }) := by
  unfold attemptInside
  split
  · exact h.attempt_cases hc
  · exact .inl ⟨_, rfl⟩

end Attempts

def change (call : FrameCall) (n : Node) : Node :=
  match call with
  | .setAttribute name value => n.setAttribute name value
  | .removeAttribute name => n.removeAttribute name
  | .post _ | .recreate => n

theorem attribute?_change (call : FrameCall) (n : Node) :
    (change call n).attribute? = call.written n.attribute? := by
  funext m
  cases call with
  | setAttribute name value =>
    simp [change, FrameCall.written, FrameCall.write?, Function.update_apply,
      Node.attribute?_setAttribute]
  | removeAttribute name =>
    simp [change, FrameCall.written, FrameCall.write?, Function.update_apply,
      Node.attribute?_removeAttribute]
  | post _ => rfl
  | recreate => rfl

theorem perform_cases (call : FrameCall) (h : FrameHandle) :
    (∃ reason, HostFrame.perform call h = (.error reason, h)) ∨
      ∃ realm, HostFrame.perform call h = (.ok (), { h with realm }) ∧
        realm.node? h.frame = h.node?.map (change call) := by
  cases call with
  | setAttribute name value =>
    rcases h.attempt_cases (.attempt "set_attribute" (some name) _) with he | he
    · exact .inl he
    · exact .inr ⟨_, he, Realm.node?_updateNode _ _ fun _ => rfl⟩
  | removeAttribute name =>
    rcases h.attempt_cases (.attempt "remove_attribute" (some name) _) with he | he
    · exact .inl he
    · exact .inr ⟨_, he, Realm.node?_updateNode _ _ fun _ => rfl⟩
  | post p =>
    rcases h.attemptInside_cases (.attempt "post_message" none _) with he | he
    · exact .inl he
    · exact .inr ⟨_, he, Option.map_id'.symm⟩
  | recreate =>
    rcases h.attemptInside_cases (.attempt "reload" none _) with he | he
    · exact .inl he
    · exact .inr ⟨_, he, Option.map_id'.symm⟩

instance : Readable FrameHandle where
  Present h := h.node?.isSome
  attribute? h name := h.node?.bind (·.attribute? name)
  note {h} n hp := by
    have hn : (HostFrame.note n h).node? = h.node? := h.realm.node?_report n h.frame
    rw [hn]
    exact ⟨hp, rfl⟩
  blur {h} hp := by
    have hn : (HostFrame.blur h).node? = h.node? := node?_blurActive h.realm h.frame
    rw [hn]
    exact ⟨hp, rfl⟩
  made {h k call} hp hm := by
    rcases h.perform_cases call with ⟨reason, he⟩ | ⟨realm, he, hn⟩
    · rw [he] at hm
      cases hm
    · rw [he] at hm
      cases hm
      obtain ⟨n, hh⟩ := Option.isSome_iff_exists.mp hp
      rw [hh, Option.map_some] at hn
      rw [show node? { h with realm } = some (change call n) from hn, hh]
      exact ⟨rfl, attribute?_change call n⟩
  failed {h k call reason} hp hm := by
    rcases h.perform_cases call with ⟨reason, he⟩ | ⟨realm, he, -⟩
    · rw [he] at hm
      cases hm
      exact ⟨hp, rfl⟩
    · rw [he] at hm
      cases hm

def Sample.pong : Control.Selection := { program := "PONG", speed := "10", theme := "1,0" }

def Sample.iframe (failures : List (String × Value)) : FrameHandle :=
  { realm := { Realm.empty with
      body := some (.mk (.new 0 "body")
        [.mk { Node.new 1 "iframe" with hasContentWindow := true } []])
      nextElement := 2
      failures }
    frame := 1 }

theorem Sample.iframe_present (failures : List (String × Value)) :
    Control.Present (Sample.iframe failures) := by
  show (Sample.iframe failures).node?.isSome = true
  rfl

theorem Sample.iframe_bare (failures : List (String × Value)) :
    Control.Bare (Sample.iframe failures) := fun _ _ => rfl

end FrameHandle

end Chip8Frame.Browser
