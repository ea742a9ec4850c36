import Chip8Frame.Proofs.Transports

/-! Boot messages over the wire. An object is read member by member in any order, an array by
position; what either says is settled name by name. Hence the objects and the arrays that are read
as one message can be told from its encoding, and the refused objects from one bad member. -/

namespace Chip8Frame

theorem lookup_eq_some_iff_mem {β : Type} {es : List (String × β)} (h : (es.map Prod.fst).Nodup)
    {name : String} {v : β} : es.lookup name = some v ↔ (name, v) ∈ es := by
  induction es with
  | nil => simp
  | cons e es ih =>
    obtain ⟨n, w⟩ := e
    obtain ⟨hn, hes⟩ := List.nodup_cons.mp h
    rw [lookup_cons_ite, List.mem_cons, Prod.mk.injEq]
    by_cases he : name = n
    · subst he
      have hv : (name, v) ∉ es := fun hm => hn (List.mem_map.mpr ⟨_, hm, rfl⟩)
      simp [hv, eq_comm]
    · simp [he, ih hes]

theorem lookup_eq_none_of_not_mem {β : Type} {es : List (String × β)} {name : String}
    (h : name ∉ es.map Prod.fst) : es.lookup name = none :=
  List.lookup_eq_none_iff.mpr fun _ he =>
    bne_iff_ne.mpr fun hn => h (hn ▸ List.mem_map_of_mem he)

theorem lookup_map {β : Type} {f : String → β} {names : List String} {name : String} :
    (names.map fun n => (n, f n)).lookup name = if name ∈ names then some (f name) else none := by
  induction names with
  | nil => rfl
  | cons n names ih =>
    rw [List.map_cons, lookup_cons_ite, ih]
    by_cases h : name = n
    · simp [h]
    · simp [h]

namespace Boot.Parameters

open Decode (string?)

def keys : List String := [programKey, speedKey, foregroundKey, backgroundKey]

def text (p : Parameters) (name : String) : Option String :=
  if name = programKey then p.program
  else if name = speedKey then p.speed
  else if name = foregroundKey then p.foreground
  else if name = backgroundKey then p.background
  else none

def withText (p : Parameters) (name : String) (t : Option String) : Parameters :=
  if name = programKey then { p with program := t }
  else if name = speedKey then { p with speed := t }
  else if name = foregroundKey then { p with foreground := t }
  else if name = backgroundKey then { p with background := t }
  else p

def values (p : Parameters) : List Json :=
  [p.program, p.speed, p.foreground, p.background].map (Json.ofOption .string)

/-- What a member says; one that is missing says as much as null. -/
inductive Says : Option Json → Option String → Prop where
  | missing : Says none none
  | null : Says (some .null) none
  | text (s : String) : Says (some (.string s)) (some s)

/-- The members of an object say what a message holds. -/
structure Conveys (ms : List (String × Json)) (p : Parameters) : Prop where
  program : Says (ms.lookup programKey) p.program
  speed : Says (ms.lookup speedKey) p.speed
  foreground : Says (ms.lookup foregroundKey) p.foreground
  background : Says (ms.lookup backgroundKey) p.background

/-- Members `ms` are what is left of `ns` when nulls are removed and unknown names added. -/
structure Loosens (ns ms : List (String × Json)) : Prop where
  removed : ∀ m ∈ ns, m ∉ ms → m.2 = .null
  added : ∀ m ∈ ms, m ∉ ns → m.1 ∉ keys

def Garbled (ms : List (String × Json)) : Prop :=
  ∃ m ∈ ms, m.1 ∈ keys ∧ m.2 ≠ .null ∧ ∀ s, m.2 ≠ .string s

section Texts

variable {p q : Parameters} {name name' : String} {t : Option String}

theorem keys_nodup : keys.Nodup := by decide

theorem forall_mem_keys {P : String → Prop} : (∀ name ∈ keys, P name) ↔
    P programKey ∧ P speedKey ∧ P foregroundKey ∧ P backgroundKey := by
  simp [keys]

theorem mem_keys : name ∈ keys ↔
    name = programKey ∨ name = speedKey ∨ name = foregroundKey ∨ name = backgroundKey := by
  simp [keys]

theorem text_withText_self (h : name ∈ keys) : (p.withText name t).text name = t := by
  obtain rfl | rfl | rfl | rfl := mem_keys.mp h <;> rfl

theorem text_withText_of_ne (h : name' ≠ name) : (p.withText name t).text name' = p.text name' := by
  unfold withText
  split_ifs with h₁ h₂ h₃ h₄
  · subst h₁
    simp [text, h]
  · subst h₂
    simp [text, h]
  · subst h₃
    simp [text, h]
  · subst h₄
    simp [text, h]
  · rfl

theorem ext_text (h : ∀ name ∈ keys, p.text name = q.text name) : p = q := by
  obtain ⟨hp, hs, hf, hb⟩ := forall_mem_keys.mp h
  cases p
  cases q
  exact mk.injEq .. ▸ ⟨hp, hs, hf, hb⟩

theorem text_absent (name : String) : absent.text name = none := by
  unfold text
  split_ifs <;> rfl

end Texts

/-! Reading members one after another. The values are those of a text format or of a script. -/

section Visits

variable {β : Type} {read : β → Except Decode.Error (Option String)} {p q : Parameters}
  {ms : List (String × β)}

def visit (read : β → Except Decode.Error (Option String)) (p : Parameters) (m : String × β) :
    Except Decode.Error Parameters :=
  if m.1 ∈ keys then (read m.2).map (p.withText m.1) else .ok p

/-- The member of a name settles its text, and without one the text stays. -/
theorem foldlM_visit (hms : (ms.map Prod.fst).Nodup) : ms.foldlM (visit read) q = .ok p ↔
    ∀ name ∈ keys, (ms.lookup name).elim (.ok (q.text name)) read = .ok (p.text name) := by
  induction ms generalizing q with
  | nil =>
    constructor
    · intro h name _
      cases h
      rfl
    · intro h
      exact congrArg Except.ok (ext_text fun name hname => Except.ok.inj (h name hname))
  | cons m ms ih =>
    obtain ⟨n, v⟩ := m
    obtain ⟨hn, hms⟩ := List.nodup_cons.mp hms
    have hnone := lookup_eq_none_of_not_mem hn
    rw [List.foldlM_cons]
    by_cases hk : n ∈ keys
    · cases hv : read v with
      | error e =>
        simp only [visit, hk, if_true, hv, Except.map]
        refine iff_of_false (fun h => nomatch h) fun h => ?_
        have hread := h n hk
        simp [hv] at hread
      | ok t =>
        simp only [visit, hk, if_true, hv, Except.map]
        refine ih hms |>.trans (forall₂_congr fun name hname => ?_)
        by_cases he : name = n
        · subst he
          rw [lookup_cons_ite, if_pos rfl, hnone, Option.elim_none, Option.elim_some,
            text_withText_self hk, hv]
        · rw [lookup_cons_ite, if_neg he, text_withText_of_ne he]
    · simp only [visit, hk, if_false]
      refine ih hms |>.trans (forall₂_congr fun name hname => ?_)
      have he : name ≠ n := fun he => hk (he ▸ hname)
      rw [lookup_cons_ite, if_neg he]

theorem foldlM_visit_error : (∃ e, ms.foldlM (visit read) q = .error e) ↔
    ∃ m ∈ ms, m.1 ∈ keys ∧ ∃ e, read m.2 = .error e := by
  induction ms generalizing q with
  | nil => simp [pure, Except.pure]
  | cons m ms ih =>
    rw [List.foldlM_cons, List.exists_mem_cons_iff]
    by_cases hk : m.1 ∈ keys
    · cases hv : read m.2 with
      | error e => simp [visit, hk, hv, Except.map, bind, Except.bind]
      | ok t =>
        simp only [visit, hk, if_true, hv, Except.map]
        exact ih.trans (by simp)
    · simp only [visit, hk, if_false]
      exact ih.trans (by simp)

theorem foldlM_visit_of_known (h : ∀ m ∈ ms, m.1 ∈ keys) : ms.foldlM (visit read) q =
    ms.foldlM (fun p m => (read m.2).map (p.withText m.1)) q := by
  induction ms generalizing q with
  | nil => rfl
  | cons m ms ih =>
    obtain ⟨hm, hms⟩ := List.forall_mem_cons.mp h
    simp only [List.foldlM_cons, visit, hm, if_true, ih hms]

end Visits

/-! Objects. -/

section Objects

variable {p : Parameters} {ms ns : List (String × Json)} {t : Option String} {v : Json}

theorem fields_eq : fields =
    keys.map fun name => (name, fun v p => (string? v).map (p.withText name)) := by
  simp only [fields, bind_pure_comp]
  rfl

theorem ofJson_object (ms : List (String × Json)) :
    ofJson (.object ms) = ms.foldlM (visit string?) absent := by
  simp only [ofJson, Decode.record, fields_eq, lookup_map]
  congr 1
  funext p m
  by_cases h : m.1 ∈ keys <;> simp only [visit, h, if_true, if_false]

theorem string?_eq_ok : string? v = .ok t ↔ v = Json.ofOption .string t := by
  cases v <;> cases t <;> simp [string?, Decode.string, Json.ofOption, Except.map]

theorem string?_eq_error : (∃ e, string? v = .error e) ↔ v ≠ .null ∧ ∀ s, v ≠ .string s := by
  cases v <;> simp [string?, Decode.string, Except.map]

theorem elim_string?_eq_ok {m : Option Json} :
    m.elim (.ok none) string? = .ok t ↔ m.getD .null = Json.ofOption .string t := by
  cases m with
  | none => cases t <;> simp [Json.ofOption]
  | some v => exact string?_eq_ok

theorem says_iff {m : Option Json} : Says m t ↔ m.getD .null = Json.ofOption .string t := by
  constructor
  · intro h
    cases h <;> rfl
  · intro h
    cases m with
    | none =>
      cases t
      · exact .missing
      · cases h
    | some v =>
      obtain rfl : v = Json.ofOption .string t := h
      cases t
      · exact .null
      · exact .text _

theorem ofJson_object_reads (hms : (ms.map Prod.fst).Nodup) : ofJson (.object ms) = .ok p ↔
    ∀ name ∈ keys, (ms.lookup name).getD .null = Json.ofOption .string (p.text name) := by
  rw [ofJson_object, foldlM_visit hms]
  simp only [text_absent, elim_string?_eq_ok]

theorem ofJson_object_eq_ok_iff (hms : (ms.map Prod.fst).Nodup) :
    ofJson (.object ms) = .ok p ↔ Conveys ms p := by
  rw [ofJson_object_reads hms, forall_mem_keys]
  simp only [← says_iff]
  exact ⟨fun ⟨hp, hs, hf, hb⟩ => ⟨hp, hs, hf, hb⟩, fun h => ⟨h.1, h.2, h.3, h.4⟩⟩

theorem ofJson_object_eq_error_iff : (∃ e, ofJson (.object ms) = .error e) ↔ Garbled ms := by
  rw [ofJson_object, foldlM_visit_error]
  simp only [string?_eq_error, Garbled]

theorem toJson_perm (p : Parameters) : ∃ ns, p.toJson = .object ns ∧
    ns.Perm (keys.map fun name => (name, Json.ofOption .string (p.text name))) :=
  Json.ofMembers_perm (keys.map fun name => (name, Json.ofOption .string (p.text name)))
    (by simpa [Function.comp_def] using keys_nodup)

theorem mem_encoded_iff (hns : p.toJson = .object ns) {m : String × Json} :
    m ∈ ns ↔ m.1 ∈ keys ∧ m.2 = Json.ofOption .string (p.text m.1) := by
  obtain ⟨n, v⟩ := m
  obtain ⟨ns', hns', hperm⟩ := p.toJson_perm
  obtain rfl : ns = ns' := Json.object.inj (hns.symm.trans hns')
  rw [hperm.mem_iff, List.mem_map]
  constructor
  · rintro ⟨name, hname, he⟩
    cases he
    exact ⟨hname, rfl⟩
  · rintro ⟨hn, hv⟩
    exact ⟨n, hn, Prod.ext rfl hv.symm⟩

theorem ofJson_object_eq_ok_iff_loosens (hns : p.toJson = .object ns)
    (hms : (ms.map Prod.fst).Nodup) : ofJson (.object ms) = .ok p ↔ Loosens ns ms := by
  have hlookup : ∀ {m : String × Json}, m ∈ ms ↔ ms.lookup m.1 = some m.2 :=
    (lookup_eq_some_iff_mem hms).symm
  rw [ofJson_object_reads hms]
  constructor
  · intro h
    refine ⟨fun m hm hmiss => ?_, fun m hm hnew hk => ?_⟩
    · obtain ⟨hk, hv⟩ := (mem_encoded_iff hns).mp hm
      have hread := h m.1 hk
      rw [← hv] at hread
      cases hl : ms.lookup m.1 with
      | none =>
        rw [hl] at hread
        exact hread.symm
      | some v =>
        rw [hl] at hread
        exact absurd (hlookup.mpr (hl.trans (congrArg some hread))) hmiss
    · have hread := h m.1 hk
      rw [hlookup.mp hm] at hread
      exact hnew ((mem_encoded_iff hns).mpr ⟨hk, hread⟩)
  · intro h name hk
    have hin : (name, Json.ofOption .string (p.text name)) ∈ ns :=
      (mem_encoded_iff hns).mpr ⟨hk, rfl⟩
    cases hl : ms.lookup name with
    | none =>
      have hmiss : (name, Json.ofOption .string (p.text name)) ∉ ms := fun hm => by
        rw [hlookup.mp hm] at hl
        cases hl
      exact (h.removed _ hin hmiss).symm
    | some v =>
      have hv : (name, v) ∈ ns := by
        by_contra hnew
        exact h.added _ (hlookup.mpr hl) hnew hk
      exact ((mem_encoded_iff hns).mp hv).2

end Objects

/-! Arrays. -/

theorem lookup_zip_getElem {β : Type} {names : List String} (h : names.Nodup) (vs : List β)
    {i : Nat} (hi : i < names.length) : (names.zip vs).lookup names[i] = vs[i]? := by
  induction names generalizing vs i with
  | nil => cases hi
  | cons n names ih =>
    obtain ⟨hn, hnames⟩ := List.nodup_cons.mp h
    cases vs with
    | nil => rfl
    | cons v vs =>
      cases i with
      | zero => simp
      | succ i =>
        have hi : i < names.length := Nat.lt_of_succ_lt_succ hi
        have hne : names[i] ≠ n := fun he => hn (he ▸ List.getElem_mem hi)
        simp [lookup_cons_ite, hne, ih hnames vs hi]

theorem nodup_zip {β : Type} {names : List String} (h : names.Nodup) (vs : List β) :
    ((names.zip vs).map Prod.fst).Nodup := by
  rw [List.zip_eq_zip_take_min, List.map_fst_zip (by simp)]
  exact h.sublist (List.take_sublist ..)

theorem exists_append_replicate_eq_iff {β : Type} {pad : β} {xs ys : List β} :
    (∃ k, xs ++ List.replicate k pad = ys) ↔
      xs.length ≤ ys.length ∧ ∀ (i : Nat) (hi : i < ys.length), xs[i]?.getD pad = ys[i] := by
  constructor
  · rintro ⟨k, rfl⟩
    refine ⟨by simp, fun i hi => ?_⟩
    by_cases h : i < xs.length
    · simp [h]
    · simp [List.getElem_append_right (Nat.le_of_not_lt h), List.getElem?_eq_none_iff.mpr
        (Nat.le_of_not_lt h)]
  · rintro ⟨hle, h⟩
    refine ⟨ys.length - xs.length, List.ext_getElem (by simp; omega) fun i hi hi' => ?_⟩
    rw [← h i hi']
    by_cases hx : i < xs.length
    · simp [hx]
    · simp [List.getElem_append_right (Nat.le_of_not_lt hx), List.getElem?_eq_none_iff.mpr
        (Nat.le_of_not_lt hx)]

section Arrays

variable {p : Parameters} {items : List Json}

theorem ofJson_array (items : List Json) : ofJson (.array items) =
    (keys.zip items).foldlM (visit string?) absent >>= fun p =>
      if keys.length < items.length then
        .error (.wrongLength items.length "fewer elements in array")
      else .ok p := by
  have hknown : ∀ m ∈ keys.zip items, m.1 ∈ keys := fun m hm => (List.of_mem_zip hm).1
  rw [ofJson, Decode.record, fields_eq, List.zip_map_left, List.foldlM_map,
    foldlM_visit_of_known hknown]
  rfl

/-- An array is read as the one message whose values it lists, but for nulls at the end. -/
theorem ofJson_array_eq_ok_iff : ofJson (.array items) = .ok p ↔
    ∃ k, items ++ List.replicate k .null = p.values := by
  have hfold : (keys.zip items).foldlM (visit string?) absent = .ok p ↔
      ∀ (i : Nat) (hi : i < keys.length),
        items[i]?.getD .null = Json.ofOption .string (p.text keys[i]) := by
    rw [foldlM_visit (nodup_zip keys_nodup items), List.forall_mem_iff_getElem]
    refine forall₂_congr fun i hi => ?_
    rw [lookup_zip_getElem keys_nodup items hi, text_absent, elim_string?_eq_ok]
  have hvalues : p.values = keys.map fun name => Json.ofOption .string (p.text name) := rfl
  rw [exists_append_replicate_eq_iff, ofJson_array]
  simp only [hvalues, List.length_map, List.getElem_map, ← hfold]
  cases (keys.zip items).foldlM (visit string?) absent with
  | error e => simp [bind, Except.bind]
  | ok q =>
    by_cases h : keys.length < items.length
    · simp [bind, Except.bind, h]
    · simp [bind, Except.bind, h, Nat.le_of_not_lt h]

end Arrays

end Boot.Parameters

end Chip8Frame
