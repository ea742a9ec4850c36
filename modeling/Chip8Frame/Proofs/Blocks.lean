import Mathlib.Data.List.Nodup
import Mathlib.Data.List.Perm.Subperm
import Chip8Frame.Proofs.Backdrop

/-! The blocks of text in a document, found by their `id` attributes. In a proper document, where
every element has a number of its own and blocks are children of the body, adding and taking out
elements changes the blocks as one expects from their numbers. -/

namespace Chip8Frame.Browser

namespace Element

theorem nodesOf_append (es fs : List Element) : nodesOf (es ++ fs) = nodesOf es ++ nodesOf fs := by
  induction es with
  | nil => rfl
  | cons e es ih => rw [List.cons_append, nodesOf, nodesOf, ih, List.append_assoc]

theorem nodes_eq (e : Element) : e.nodes = e.node :: nodesOf e.children := by
  cases e
  rfl

theorem node_mem_nodesOf {e : Element} {es : List Element} (h : e ∈ es) : e.node ∈ nodesOf es := by
  induction h with
  | head es =>
    rw [nodesOf, nodes_eq]
    exact List.mem_append_left _ List.mem_cons_self
  | tail d _ ih => exact List.mem_append_right _ ih

section Remove

variable (id : Nat)

theorem node_remove : ∀ e : Element, (remove id e).node = e.node
  | mk _ _ => rfl

theorem children_remove : ∀ e : Element, (remove id e).children = removeAll id e.children
  | mk _ _ => rfl

mutual

theorem nodes_remove_sublist : ∀ e : Element, (remove id e).nodes.Sublist e.nodes
  | mk _ children => (nodesOf_removeAll_sublist children).cons_cons _

theorem nodesOf_removeAll_sublist : ∀ es : List Element,
    (nodesOf (removeAll id es)).Sublist (nodesOf es)
  | [] => .slnil
  | e :: es => by
    rw [removeAll]
    split
    · exact (nodesOf_removeAll_sublist es).trans (List.sublist_append_right _ _)
    · exact (nodes_remove_sublist e).append (nodesOf_removeAll_sublist es)

end

mutual

theorem id_ne_of_mem_remove : ∀ e : Element, e.node.id ≠ id → ∀ n ∈ (remove id e).nodes, n.id ≠ id
  | mk node children, he, n, hn => by
    rcases List.mem_cons.mp hn with rfl | hn
    · exact he
    · exact id_ne_of_mem_removeAll children n hn

theorem id_ne_of_mem_removeAll : ∀ es : List Element, ∀ n ∈ nodesOf (removeAll id es), n.id ≠ id
  | [], n, hn => absurd hn List.not_mem_nil
  | e :: es, n, hn => by
    rw [removeAll] at hn
    split at hn
    · exact id_ne_of_mem_removeAll es n hn
    · next he =>
      rcases List.mem_append.mp hn with hn | hn
      · exact id_ne_of_mem_remove e he n hn
      · exact id_ne_of_mem_removeAll es n hn

end

mutual

theorem remove_of_below?_eq_none : ∀ e : Element, below? id e = none → remove id e = e
  | mk node children, h => congrArg (mk node) (removeAll_of_among?_eq_none children h)

theorem removeAll_of_among?_eq_none : ∀ es : List Element, among? id es = none →
    removeAll id es = es
  | [], _ => rfl
  | e :: es, h => by
    rw [among?] at h
    split at h
    · cases h
    · next he =>
      obtain ⟨hb, ha⟩ := Option.or_eq_none_iff.mp h
      rw [removeAll, if_neg he, remove_of_below?_eq_none e hb, removeAll_of_among?_eq_none es ha]

end

theorem map_node_removeAll (es : List Element) :
    (removeAll id es).map node = (es.map node).filter (·.id ≠ id) := by
  induction es with
  | nil => rfl
  | cons e es ih =>
    rw [removeAll]
    split
    · next he => rw [ih, List.map_cons, List.filter_cons_of_neg (by simp [he])]
    · next he =>
      rw [List.map_cons, List.map_cons, node_remove, ih, List.filter_cons_of_pos (by simp [he])]

end Remove

section Append

variable (parent : Nat) (child : Element) (p : Node → Bool)

mutual

theorem countP_append : ∀ e : Element, (append parent child e).nodes.countP p =
    e.nodes.countP p + e.nodes.countP (·.id = parent) * child.nodes.countP p
  | mk node children => by
    rw [append, nodes, nodes, List.countP_cons, List.countP_cons, List.countP_cons]
    by_cases hn : node.id = parent
    · simp only [hn, if_true, nodesOf_append, List.countP_append, countP_appendAll children,
        nodesOf, List.append_nil, decide_true]
      rw [Nat.add_mul]
      omega
    · simp only [hn, if_false, countP_appendAll children, decide_false, Bool.false_eq_true,
        Nat.add_zero]
      omega

theorem countP_appendAll : ∀ es : List Element, (nodesOf (appendAll parent child es)).countP p =
    (nodesOf es).countP p + (nodesOf es).countP (·.id = parent) * child.nodes.countP p
  | [] => by simp [appendAll, nodesOf]
  | e :: es => by
    rw [appendAll, nodesOf, nodesOf, List.countP_append, List.countP_append, List.countP_append,
      countP_append e, countP_appendAll es, Nat.add_mul]
    omega

end

mutual

theorem filter_append (hc : child.nodes.filter p = []) : ∀ e : Element,
    (append parent child e).nodes.filter p = e.nodes.filter p
  | mk node children => by
    rw [append, nodes, nodes, List.filter_cons, List.filter_cons]
    by_cases hn : node.id = parent
    · simp only [hn, if_true, nodesOf_append, List.filter_append, filter_appendAll hc children,
        nodesOf, List.append_nil, hc]
    · simp only [hn, if_false, filter_appendAll hc children]

theorem filter_appendAll (hc : child.nodes.filter p = []) : ∀ es : List Element,
    (nodesOf (appendAll parent child es)).filter p = (nodesOf es).filter p
  | [] => rfl
  | e :: es => by
    rw [appendAll, nodesOf, nodesOf, List.filter_append, List.filter_append, filter_append hc e,
      filter_appendAll hc es]

end

theorem node_append : ∀ e : Element, (append parent child e).node = e.node
  | mk _ _ => rfl

theorem map_node_appendAll (es : List Element) :
    (appendAll parent child es).map node = es.map node := by
  induction es with
  | nil => rfl
  | cons e es ih => rw [appendAll, List.map_cons, List.map_cons, node_append, ih]

theorem mem_children_append {n : Node} : ∀ e : Element, n ∈ e.children.map node →
    n ∈ (append parent child e).children.map node
  | mk node children, hn => by
    rw [append]
    simp only [Element.children] at hn ⊢
    split
    · rw [List.map_append, map_node_appendAll]
      exact List.mem_append_left _ hn
    · rwa [map_node_appendAll]

theorem mem_append {n : Node} {e : Element} (hn : n ∈ (append parent child e).nodes) :
    n ∈ e.nodes ∨ n ∈ child.nodes := by
  have hc := countP_append parent child (fun m => m = n) e
  have hpos : 0 < (append parent child e).nodes.countP (fun m => m = n) :=
    List.countP_pos_iff.mpr ⟨n, hn, by simp⟩
  by_contra hno
  obtain ⟨he, hch⟩ := not_or.mp hno
  have hz : ∀ l : List Node, n ∉ l → l.countP (fun m => m = n) = 0 := by
    intro l hl
    rw [List.countP_eq_zero]
    intro m hm heq
    exact hl (of_decide_eq_true heq ▸ hm)
  rw [hz _ he, hz _ hch] at hc
  omega

end Append

def push (e child : Element) : Element := mk e.node (e.children ++ [child])

theorem node_push (e child : Element) : (e.push child).node = e.node := rfl

theorem nodes_push (e : Element) (n : Node) : (e.push (mk n [])).nodes = e.nodes ++ [n] := by
  rw [push, nodes, nodesOf_append, nodes_eq e]
  rfl

end Element

open DocumentSurface (diagnosticId bannerId)

def Node.named (n : Node) (name : String) : Bool := n.attribute? "id" = some name

def blockIds : List String := [diagnosticId, bannerId]

def Node.IsBlock (n : Node) : Prop := ∃ name ∈ blockIds, n.named name = true

namespace Element

def blocks (e : Element) (name : String) : List Node := e.nodes.filter (·.named name)

/-- A body as documents have it: its elements have different numbers, all of them used up, and the
blocks among its elements are its children. -/
structure Proper (b : Element) (next : Nat) : Prop where
  distinct : (b.nodes.map Node.id).Nodup
  used : ∀ n ∈ b.nodes, n.id < next
  canvas : b.node.tag ≠ "canvas"
  placed : ∀ n ∈ b.nodes, n.IsBlock → n.tag ≠ "canvas" ∧ n ∈ b.children.map node

namespace Proper

variable {b : Element} {next : Nat} {name : String} {n : Node}

theorem mono {next' : Nat} (h : b.Proper next) (hn : next ≤ next') : b.Proper next' where
  distinct := h.distinct
  used n hm := Nat.lt_of_lt_of_le (h.used n hm) hn
  canvas := h.canvas
  placed := h.placed

theorem nodup (h : b.Proper next) (name : String) : ((b.blocks name).map Node.id).Nodup :=
  h.distinct.sublist (List.filter_sublist.map _)

theorem eq_of_id_eq (h : b.Proper next) {m : Node} (hn : n ∈ b.nodes) (hm : m ∈ b.nodes)
    (he : n.id = m.id) : n = m :=
  List.inj_on_of_nodup_map h.distinct hn hm he

section Remove

variable (id : Nat)

theorem mem_remove_of_placed (hn : n ∈ b.children.map node) (hid : n.id ≠ id) :
    n ∈ (remove id b).children.map node := by
  rw [children_remove, map_node_removeAll, List.mem_filter]
  exact ⟨hn, by simpa using hid⟩

theorem id_ne_of_mem (hn : n ∈ (remove id b).nodes) (hb : n ≠ b.node) : n.id ≠ id := by
  rw [nodes_eq, node_remove, children_remove, List.mem_cons] at hn
  exact id_ne_of_mem_removeAll id _ n (hn.resolve_left hb)

theorem ne_top (h : b.Proper next) (hn : n ∈ b.children.map node) : n ≠ b.node := by
  obtain ⟨e, he, rfl⟩ := List.mem_map.mp hn
  intro heq
  have hd := h.distinct
  rw [nodes_eq, List.map_cons, List.nodup_cons] at hd
  exact hd.1 (heq ▸ List.mem_map_of_mem (node_mem_nodesOf he))

theorem remove (h : b.Proper next) : (Element.remove id b).Proper next := by
  have hsub := nodes_remove_sublist id b
  refine ⟨h.distinct.sublist (hsub.map _), fun n hn => h.used n (hsub.subset hn), ?_, ?_⟩
  · rw [node_remove]
    exact h.canvas
  · intro n hn hblock
    obtain ⟨htag, hplaced⟩ := h.placed n (hsub.subset hn) hblock
    exact ⟨htag, mem_remove_of_placed id hplaced (id_ne_of_mem id hn (h.ne_top hplaced))⟩

theorem blocks_remove (h : b.Proper next) (hname : name ∈ blockIds) :
    (Element.remove id b).blocks name = (b.blocks name).filter (·.id ≠ id) := by
  -- a removal may take more along than the one element, but no block lies below another
  have hsub := (nodes_remove_sublist id b).filter (·.named name)
  have hplaced : ∀ n ∈ b.blocks name, n ∈ b.children.map node := by
    intro n hn
    obtain ⟨hn, hnamed⟩ := List.mem_filter.mp hn
    exact (h.placed n hn ⟨name, hname, hnamed⟩).2
  have hids : ∀ n ∈ (Element.remove id b).blocks name, n.id ≠ id := by
    intro n hn
    exact id_ne_of_mem id (List.mem_filter.mp hn).1 (h.ne_top (hplaced n (hsub.subset hn)))
  have hle : ((Element.remove id b).blocks name).Sublist
      ((b.blocks name).filter (·.id ≠ id)) := by
    have hf := hsub.filter (·.id ≠ id)
    rwa [List.filter_eq_self.mpr fun n hn => by simpa using hids n hn] at hf
  have hge : (b.blocks name).filter (·.id ≠ id) ⊆ (Element.remove id b).blocks name := by
    intro n hn
    obtain ⟨hn, hid⟩ := List.mem_filter.mp hn
    have hmem := mem_remove_of_placed id (hplaced n hn) (by simpa using hid)
    obtain ⟨e, he, rfl⟩ := List.mem_map.mp hmem
    refine List.mem_filter.mpr ⟨?_, (List.mem_filter.mp hn).2⟩
    rw [nodes_eq]
    exact List.mem_cons_of_mem _ (node_mem_nodesOf he)
  have hnodup : ((b.blocks name).filter (·.id ≠ id)).Nodup := ((h.nodup name).of_map _).filter _
  exact hle.eq_of_length_le (List.subperm_of_subset hnodup hge).length_le

end Remove

theorem push (h : b.Proper next) (hid : n.id = next) (ht : n.tag ≠ "canvas" ∨ ¬ n.IsBlock) :
    (b.push (Element.mk n [])).Proper (next + 1) := by
  refine ⟨?_, ?_, h.canvas, ?_⟩
  · rw [nodes_push, List.map_append, List.nodup_append]
    refine ⟨h.distinct, List.nodup_singleton _, ?_⟩
    rintro _ hm _ hn rfl
    obtain ⟨m, hm, he⟩ := List.mem_map.mp hm
    have hlt := h.used m hm
    simp only [List.map_cons, List.map_nil, List.mem_singleton] at hn
    omega
  · intro m hm
    rw [nodes_push, List.mem_append, List.mem_singleton] at hm
    rcases hm with hm | rfl
    · exact Nat.lt_succ_of_lt (h.used m hm)
    · omega
  · intro m hm hblock
    rw [nodes_push, List.mem_append, List.mem_singleton] at hm
    have hc : (b.push (Element.mk n [])).children.map node = b.children.map node ++ [n] := by
      rw [Element.push, children, List.map_append]
      rfl
    rw [hc]
    rcases hm with hm | rfl
    · exact ⟨(h.placed m hm hblock).1, List.mem_append_left _ (h.placed m hm hblock).2⟩
    · exact ⟨ht.resolve_right (fun hn => hn hblock), List.mem_append_right _ List.mem_cons_self⟩

theorem blocks_push (b : Element) (n : Node) (name : String) :
    (b.push (Element.mk n [])).blocks name = b.blocks name ++ [n].filter (·.named name) := by
  rw [blocks, nodes_push, List.filter_append]
  rfl

theorem countP_id_le_one (h : b.Proper next) (id : Nat) : b.nodes.countP (·.id = id) ≤ 1 := by
  have hc := List.nodup_iff_count_le_one.mp h.distinct id
  rwa [List.count_eq_countP, List.countP_map] at hc

theorem append (h : b.Proper next) (hid : n.id = next) (ht : ¬ n.IsBlock) (parent : Nat) :
    (Element.append parent (Element.mk n []) b).Proper (next + 1) := by
  have hmem : ∀ m ∈ (Element.append parent (Element.mk n []) b).nodes, m ∈ b.nodes ∨ m = n := by
    intro m hm
    have hnodes : (Element.mk n []).nodes = [n] := rfl
    simpa [hnodes] using mem_append parent _ hm
  refine ⟨?_, ?_, ?_, ?_⟩
  · rw [List.nodup_iff_count_le_one]
    intro id
    rw [List.count_eq_countP, List.countP_map]
    show (Element.append parent (Element.mk n []) b).nodes.countP (·.id = id) ≤ 1
    rw [countP_append]
    have hone := h.countP_id_le_one id
    have hparents := h.countP_id_le_one parent
    by_cases hn : n.id = id
    · have hnone : b.nodes.countP (·.id = id) = 0 := by
        rw [List.countP_eq_zero]
        intro m hm he
        have hlt := h.used m hm
        simp only [decide_eq_true_eq] at he
        omega
      have hchild : (Element.mk n []).nodes.countP (·.id = id) = 1 := by simp [nodes, nodesOf, hn]
      rw [hnone, hchild]
      omega
    · have hchild : (Element.mk n []).nodes.countP (·.id = id) = 0 := by simp [nodes, nodesOf, hn]
      rw [hchild]
      omega
  · intro m hm
    rcases hmem m hm with hb | rfl
    · exact Nat.lt_succ_of_lt (h.used m hb)
    · omega
  · rw [node_append]
    exact h.canvas
  · intro m hm hblock
    rcases hmem m hm with hb | rfl
    · exact ⟨(h.placed m hb hblock).1, mem_children_append parent _ b (h.placed m hb hblock).2⟩
    · exact absurd hblock ht

end Proper

end Element

namespace Realm

def blocks (r : Realm) (name : String) : List Node := (r.body.map (·.blocks name)).getD []

def Proper (r : Realm) : Prop := ∃ b, r.body = some b ∧ b.Proper r.nextElement

/-- What happened to the document left the blocks in it alone, and made no new ones. -/
structure Spares (r r' : Realm) : Prop where
  proper : r'.Proper
  blocks : ∀ name ∈ blockIds, r'.blocks name = r.blocks name

variable {r s : Realm}

theorem blocks_eq {b : Element} (hb : r.body = some b) (name : String) :
    r.blocks name = b.blocks name := by
  rw [blocks, hb]
  rfl

theorem named_of_mem_blocks {name : String} {n : Node} (hn : n ∈ r.blocks name) :
    n.named name = true := by
  cases hb : r.body with
  | none => simp [blocks, hb] at hn
  | some b =>
    rw [blocks_eq hb] at hn
    exact (List.mem_filter.mp hn).2

theorem Proper.nodup_blocks (h : r.Proper) (name : String) :
    ((r.blocks name).map Node.id).Nodup := by
  obtain ⟨b, hb, hp⟩ := h
  rw [blocks_eq hb]
  exact hp.nodup name

theorem Proper.eq_of_id_eq (h : r.Proper) {name other : String} {n m : Node}
    (hn : n ∈ r.blocks name) (hm : m ∈ r.blocks other) (he : n.id = m.id) : n = m := by
  obtain ⟨b, hb, hp⟩ := h
  rw [blocks_eq hb] at hn hm
  exact hp.eq_of_id_eq (List.mem_filter.mp hn).1 (List.mem_filter.mp hm).1 he

namespace Spares

theorem trans {t : Realm} (h : Spares r s) (k : Spares s t) : Spares r t where
  proper := k.proper
  blocks name hn := (k.blocks name hn).trans (h.blocks name hn)

theorem of_body (h : r.Proper) (hb : s.body = r.body) (hn : r.nextElement ≤ s.nextElement) :
    Spares r s := by
  obtain ⟨b, hbody, hp⟩ := h
  refine ⟨⟨b, hb.trans hbody, hp.mono hn⟩, fun name _ => ?_⟩
  rw [Realm.blocks, Realm.blocks, hb]

theorem refl (h : r.Proper) : Spares r r := of_body h rfl (Nat.le_refl _)

theorem report (h : r.Proper) (n : Log.Notice) : Spares r (r.report n) := by
  obtain ⟨events, he⟩ := r.report_eq n
  rw [he]
  exact of_body h rfl (Nat.le_refl _)

end Spares

theorem body_appendToBody (r : Realm) (e : Element) :
    (r.appendToBody e).body = r.body.map (·.push e) := by
  unfold appendToBody
  rcases hb : r.body with _ | ⟨node, children⟩
  · exact hb
  · rfl

theorem nextElement_appendToBody (r : Realm) (e : Element) :
    (r.appendToBody e).nextElement = r.nextElement := by
  unfold appendToBody
  split <;> rfl

theorem body_removeElement (r : Realm) (id : Nat) :
    (r.removeElement id).body = r.body.map (Element.remove id) := by
  unfold removeElement
  split
  · rfl
  · next hf =>
    cases hb : r.body with
    | none => rfl
    | some b =>
      have hnone : Element.below? id b = none := by
        rw [List.findSome?_eq_none_iff] at hf
        exact hf b (by simp [trees, hb])
      rw [Option.map_some, Element.remove_of_below?_eq_none id b hnone]

theorem nextElement_removeElement (r : Realm) (id : Nat) :
    (r.removeElement id).nextElement = r.nextElement := by
  unfold removeElement
  split <;> rfl

theorem Proper.removeElement (h : r.Proper) (id : Nat) : (r.removeElement id).Proper := by
  obtain ⟨b, hb, hp⟩ := h
  refine ⟨b.remove id, ?_, ?_⟩
  · rw [body_removeElement, hb, Option.map_some]
  · rw [nextElement_removeElement]
    exact hp.remove id

theorem Proper.blocks_removeElement (h : r.Proper) (id : Nat) {name : String}
    (hname : name ∈ blockIds) :
    (r.removeElement id).blocks name = (r.blocks name).filter (·.id ≠ id) := by
  obtain ⟨b, hb, hp⟩ := h
  rw [blocks_eq hb, ← hp.blocks_remove id hname]
  exact blocks_eq (by rw [body_removeElement, hb, Option.map_some]) name

/-! Canvases, which a guest adds and the end of a display takes away. -/

theorem mem_canvases {n : Node} {b : Element} (hb : r.body = some b) :
    n ∈ r.canvases ↔ n ∈ b.nodes ∧ n.tag = "canvas" := by
  simp [canvases, hb]

/-- The top of the document is no canvas, so whatever is one can be taken out. -/
def Topped (r : Realm) : Prop := ∀ b, r.body = some b → b.node.tag ≠ "canvas"

theorem Proper.topped (h : r.Proper) : r.Topped := by
  obtain ⟨b, hb, hp⟩ := h
  intro c hc
  obtain rfl := Option.some.inj (hb.symm.trans hc)
  exact hp.canvas

theorem Topped.removeElement (h : r.Topped) (id : Nat) : (r.removeElement id).Topped := by
  intro c hc
  rw [body_removeElement, Option.map_eq_some_iff] at hc
  obtain ⟨b, hb, rfl⟩ := hc
  rw [Element.node_remove]
  exact h b hb

theorem Topped.mem_canvases_removeElement (h : r.Topped) {id : Nat} {n : Node}
    (hn : n ∈ (r.removeElement id).canvases) : n ∈ r.canvases ∧ n.id ≠ id := by
  cases hb : r.body with
  | none => simp [canvases, body_removeElement, hb] at hn
  | some b =>
    have hb' : (r.removeElement id).body = some (b.remove id) := by
      rw [body_removeElement, hb, Option.map_some]
    obtain ⟨hn, htag⟩ := (mem_canvases hb').mp hn
    refine ⟨(mem_canvases hb).mpr ⟨(Element.nodes_remove_sublist id b).subset hn, htag⟩, ?_⟩
    exact Element.Proper.id_ne_of_mem id hn fun he => h b hb (he ▸ htag)

/-- The list of what is taken out is made before the first of it goes. -/
theorem Topped.mem_canvases_removeEach (h : r.Topped) {cs : List Node} {n : Node}
    (hn : n ∈ (cs.foldl (fun r c => r.removeElement c.id) r).canvases) :
    n ∈ r.canvases ∧ ∀ c ∈ cs, n.id ≠ c.id := by
  induction cs generalizing r with
  | nil => exact ⟨hn, fun c hc => absurd hc List.not_mem_nil⟩
  | cons c cs ih =>
    obtain ⟨hn, hids⟩ := ih (h.removeElement c.id) hn
    obtain ⟨hn, hid⟩ := h.mem_canvases_removeElement hn
    exact ⟨hn, List.forall_mem_cons.mpr ⟨hid, hids⟩⟩

theorem Proper.block_id_ne (h : r.Proper) {name : String} (hname : name ∈ blockIds) {n c : Node}
    (hn : n ∈ r.blocks name) (hc : c ∈ r.canvases) : n.id ≠ c.id := by
  obtain ⟨b, hb, hp⟩ := h
  rw [blocks_eq hb] at hn
  obtain ⟨hn, hnamed⟩ := List.mem_filter.mp hn
  obtain ⟨hc, htag⟩ := (mem_canvases hb).mp hc
  intro he
  obtain rfl := hp.eq_of_id_eq hn hc he
  exact (hp.placed n hn ⟨name, hname, hnamed⟩).1 htag

theorem Spares.removeEach {cs : List Node} (h : r.Proper)
    (hc : ∀ name ∈ blockIds, ∀ n ∈ r.blocks name, ∀ c ∈ cs, n.id ≠ c.id) :
    Spares r (cs.foldl (fun r c => r.removeElement c.id) r) := by
  induction cs generalizing r with
  | nil => exact .refl h
  | cons c cs ih =>
    have hfirst : Spares r (r.removeElement c.id) := by
      refine ⟨h.removeElement c.id, fun name hname => ?_⟩
      rw [h.blocks_removeElement c.id hname, List.filter_eq_self]
      intro n hn
      simpa using hc name hname n hn c List.mem_cons_self
    exact hfirst.trans (ih hfirst.proper fun name hname n hn d hd =>
      hc name hname n (hfirst.blocks name hname ▸ hn) d (List.mem_cons_of_mem _ hd))

section Guest

theorem not_isBlock_newNode (r : Realm) (tag : String) : ¬ (r.newNode tag).1.IsBlock := by
  rintro ⟨name, -, hn⟩
  simp [newNode, Node.new, Node.named, Node.attribute?] at hn

theorem Spares.appendNew (h : r.Proper) (tag : String) :
    Spares r ((r.newNode tag).2.appendToBody (.mk (r.newNode tag).1 [])) := by
  obtain ⟨b, hb, hp⟩ := h
  have hbody : ((r.newNode tag).2.appendToBody (.mk (r.newNode tag).1 [])).body =
      some (b.push (.mk (r.newNode tag).1 [])) := by
    rw [body_appendToBody, show (r.newNode tag).2.body = r.body from rfl, hb, Option.map_some]
  refine ⟨⟨_, hbody, ?_⟩, fun name hname => ?_⟩
  · rw [nextElement_appendToBody]
    exact hp.push rfl (.inr (r.not_isBlock_newNode tag))
  · have hnamed : (r.newNode tag).1.named name = false := by
      have hno := r.not_isBlock_newNode tag
      cases hn : (r.newNode tag).1.named name with
      | false => rfl
      | true => exact absurd ⟨name, hname, hn⟩ hno
    rw [blocks_eq hbody, blocks_eq hb, Element.Proper.blocks_push, List.filter_cons_of_neg (by
      simp [hnamed]), List.filter_nil, List.append_nil]

theorem Spares.addCanvasTo (h : r.Proper) (parent : Node) : Spares r (r.addCanvasTo parent) := by
  obtain ⟨b, hb, hp⟩ := h
  have hbody : (r.addCanvasTo parent).body =
      some (Element.append parent.id (.mk (r.newNode "canvas").1 []) b) := by
    simp [Realm.addCanvasTo, record, hb, newNode]
  have hno := r.not_isBlock_newNode "canvas"
  refine ⟨⟨_, hbody, hp.append rfl hno parent.id⟩, fun name hname => ?_⟩
  rw [blocks_eq hbody, blocks_eq hb]
  refine Element.filter_append parent.id _ _ ?_ b
  rw [List.filter_eq_nil_iff]
  intro n hn hnamed
  obtain rfl : n = (r.newNode "canvas").1 := by simpa [Element.nodes, Element.nodesOf] using hn
  exact hno ⟨name, hname, hnamed⟩

theorem Spares.foldl {α : Type} {f : Realm → α → Realm}
    (hf : ∀ r, r.Proper → ∀ a, Spares r (f r a)) (h : r.Proper) (as : List α) :
    Spares r (as.foldl f r) := by
  induction as generalizing r with
  | nil => exact .refl h
  | cons a as ih => exact (hf r h a).trans (ih (hf r h a).proper)

theorem Spares.addCanvases (h : r.Proper) (count : Nat) (nested : Bool) :
    Spares r (r.addCanvases count nested) := by
  unfold Realm.addCanvases
  split
  · exact .refl h
  · split
    · have hbox := Spares.appendNew h "div"
      exact hbox.trans (.foldl (fun r hr _ => .addCanvasTo hr _) hbox.proper _)
    · exact .foldl (fun r hr _ => .appendNew hr "canvas") h _

end Guest

end Realm

end Chip8Frame.Browser
