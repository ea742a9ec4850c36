import Mathlib.Data.List.Infix
import Chip8Frame.Proofs.FrameAttributes

/-! What a frame carries when it is recreated. A send writes its attributes one after the other and
stops where one fails, so a frame carries layers, each a first part of one request. A send
recreates the frame only after its last attribute; a hard reset recreates what is there. -/

namespace Chip8Frame.Control

open Boot (Parameters)

def Mark.write? {φ : Type} : Mark φ → Option (String × Option String)
  | .call c (.ok ()) _ => c.write?
  | _ => none

def writes {φ : Type} (d : List (Mark φ)) : List (String × Option String) :=
  d.filterMap Mark.write?

def inscribed (ws : List (String × Option String)) : Parameters :=
  Parameters.ofAttributes fun name => (ws.lookup name).join

/-- The newest write is not of the attribute that a send writes last. -/
def Torn (ws : List (String × Option String)) : Prop :=
  ∃ name value rest, ws = (name, value) :: rest ∧ name ≠ Parameters.backgroundAttribute

/-- Writes in layers, each the first part of what one of these requests writes, or all of it. -/
inductive Layers (requested : Selection → Prop) : List (String × Option String) → Prop where
  | nil : Layers requested []
  | cons {s : Selection} {p : Parameters} {part ws : List (String × Option String)}
      (ordered : requested s) (readable : s.parameters = .ok p) (begun : part ≠ [])
      (first : part <+: p.toAttributes) (below : Layers requested ws) :
      Layers requested (part.reverse ++ ws)

def Requested {φ : Type} (d : List (Mark φ)) (s : Selection) : Prop := .command (.send s) ∈ d

def Whole (requested : Selection → Prop) (p : Parameters) : Prop :=
  p = .absent ∨ ∃ s, requested s ∧ s.parameters = .ok p

/-- What holds of a frame that is recreated after this much of the diary. -/
structure Recreated {φ : Type} [HostFrame φ] [Readable φ] (past : List (Mark φ)) (f : φ) :
    Prop where
  reads : carried f = inscribed (writes past)
  layers : Layers (Requested past) (writes past)
  whole : ¬ Torn (writes past) → Whole (Requested past) (carried f)
  torn : Torn (writes past) → past.head? = some (.command .hardReset)

section Writes

variable {φ : Type} {d : List (Mark φ)}

theorem writes_cons_none {m : Mark φ} (h : m.write? = none) : writes (m :: d) = writes d :=
  List.filterMap_cons_none h

theorem writes_made (call : FrameCall) (f : φ) :
    writes (.call call (.ok ()) f :: d) = call.write?.toList ++ writes d := by
  cases h : call.write? with
  | none => exact List.filterMap_cons_none h
  | some w => exact List.filterMap_cons_some h

theorem Made.writes [HostFrame φ] {w v : Watched φ} {calls : List FrameCall}
    (h : Made w calls v) :
    writes v.diary = (calls.filterMap FrameCall.write?).reverse ++ writes w.diary := by
  induction h with
  | nil => rfl
  | @cons w _ _ call calls first _ ih =>
    rw [ih, (Watched.perform_eq first).2, writes_made]
    cases hw : call.write? with
    | none => rw [List.filterMap_cons_none hw]; rfl
    | some x => rw [List.filterMap_cons_some hw]; simp

end Writes

theorem inscribed_append (p : Parameters) (ws : List (String × Option String)) :
    inscribed (p.toAttributes.reverse ++ ws) = p := by
  obtain ⟨program, speed, foreground, background⟩ := p
  simp [inscribed, Parameters.ofAttributes, Parameters.toAttributes, lookup_cons_ite,
    Parameters.programAttribute, Parameters.speedAttribute,
    Parameters.foregroundAttribute, Parameters.backgroundAttribute]

theorem part_eq {p : Parameters} {part : List (String × Option String)} {value : Option String}
    (h : part ++ [(Parameters.backgroundAttribute, value)] <+: p.toAttributes) :
    part ++ [(Parameters.backgroundAttribute, value)] = p.toAttributes := by
  obtain ⟨rest, hr⟩ := h
  have hlength := congrArg List.length hr
  simp only [Parameters.toAttributes, List.length_append, List.length_cons, List.length_nil]
    at hlength
  rcases part with _ | ⟨a, _ | ⟨b, _ | ⟨c, _ | ⟨d, part⟩⟩⟩⟩
  · simp [Parameters.toAttributes, Parameters.backgroundAttribute, Parameters.programAttribute]
      at hr
  · simp [Parameters.toAttributes, Parameters.backgroundAttribute, Parameters.speedAttribute]
      at hr
  · simp [Parameters.toAttributes, Parameters.backgroundAttribute, Parameters.foregroundAttribute]
      at hr
  · have hn : rest = [] := List.length_eq_zero_iff.mp (by simpa using hlength)
    rw [← hr, hn, List.append_nil]
  · simp only [List.length_cons] at hlength
    omega

namespace Layers

variable {requested also : Selection → Prop} {ws : List (String × Option String)}

theorem mono (h : Layers requested ws) (ha : ∀ s, requested s → also s) : Layers also ws := by
  induction h with
  | nil => exact .nil
  | cons ordered readable begun first _ ih => exact .cons (ha _ ordered) readable begun first ih

theorem whole (h : Layers requested ws) (ht : ¬ Torn ws) : Whole requested (inscribed ws) := by
  cases h with
  | nil => exact .inl rfl
  | @cons s p part ws ordered readable begun first _ =>
    -- the write on top is the last one of its layer; if it is of the last attribute, the layer is
    -- a whole request and hides all that lies below
    rcases part.eq_nil_or_concat with rfl | ⟨part, ⟨name, value⟩, rfl⟩
    · exact absurd rfl begun
    · have hn : name = Parameters.backgroundAttribute := by
        by_contra hn
        exact ht ⟨name, value, part.reverse ++ ws, by simp, hn⟩
      subst hn
      rw [List.concat_eq_append] at first ⊢
      rw [part_eq first, inscribed_append]
      exact .inr ⟨s, ordered, readable⟩

end Layers

section Diaries

variable {φ : Type} [HostFrame φ] [Readable φ]

/-- Whenever the diary has the frame recreated, this holds of it. -/
def Lawful (d : List (Mark φ)) : Prop :=
  ∀ ys f past, d = ys ++ .call .recreate (.ok ()) f :: past → Recreated past f

theorem Lawful.cons {d : List (Mark φ)} (h : Lawful d) {m : Mark φ}
    (hm : ∀ f, m = .call .recreate (.ok ()) f → Recreated d f) : Lawful (m :: d) := by
  intro ys f past hd
  cases ys with
  | nil =>
    obtain ⟨rfl, rfl⟩ := List.cons.inj hd
    exact hm f rfl
  | cons y ys => exact h ys f past (List.cons.inj hd).2

/-- The frame carries what the diary says was written. -/
structure Tracked (w : Watched φ) : Prop where
  present : Present w.frame
  reads : ∀ name ∈ Parameters.attributeNames,
    attribute? w.frame name = ((writes w.diary).lookup name).join

theorem Tracked.carried {w : Watched φ} (h : Tracked w) :
    carried w.frame = inscribed (writes w.diary) := by
  have hr := h.reads
  simp only [Parameters.attributeNames, List.forall_mem_cons] at hr
  obtain ⟨hp, hs, hf, hb, -⟩ := hr
  simp only [Control.carried, inscribed, Parameters.ofAttributes, hp, hs, hf, hb]

theorem Tracked.mark {w : Watched φ} (h : Tracked w) (c : Command) :
    Tracked (w.mark (.command c)) :=
  ⟨h.present, h.reads⟩

theorem Tracked.note {w : Watched φ} (h : Tracked w) (n : Log.Notice) :
    Tracked (HostFrame.note n w) := by
  obtain ⟨hp, ha⟩ := Readable.note n h.present
  refine ⟨hp, ?_⟩
  rw [Watched.frame_note, ha]
  exact h.reads

theorem Tracked.blur {w : Watched φ} (h : Tracked w) : Tracked (HostFrame.blur w) := by
  obtain ⟨hp, ha⟩ := Readable.blur h.present
  refine ⟨hp, ?_⟩
  rw [Watched.frame_blur, ha]
  exact h.reads

theorem Tracked.failed {w v : Watched φ} {call : FrameCall} {reason : String} (h : Tracked w)
    (hf : HostFrame.perform call w = (.error reason, v)) : Tracked v := by
  obtain ⟨he, hd⟩ := Watched.perform_eq hf
  obtain ⟨hp, ha⟩ := Readable.failed h.present he
  refine ⟨hp, ?_⟩
  rw [hd, writes_cons_none rfl, ha]
  exact h.reads

theorem Tracked.made {w v : Watched φ} {call : FrameCall} (h : Tracked w)
    (hm : HostFrame.perform call w = (.ok (), v)) : Tracked v := by
  obtain ⟨he, hd⟩ := Watched.perform_eq hm
  obtain ⟨hp, ha⟩ := Readable.made h.present he
  refine ⟨hp, fun name hn => ?_⟩
  rw [hd, writes_made, ha, FrameCall.written]
  cases hw : call.write? with
  | none => exact h.reads name hn
  | some x =>
    obtain ⟨k, value⟩ := x
    rw [Option.toList_some, List.singleton_append, lookup_cons_ite]
    simp only [Function.update_apply, h.reads name hn]
    by_cases hk : name = k
    · rw [if_pos hk, if_pos hk, Option.join_some]
    · rw [if_neg hk, if_neg hk]

namespace Made

variable {w v : Watched φ} {calls : List FrameCall}

theorem tracked (h : Made w calls v) (ht : Tracked w) : Tracked v := by
  induction h with
  | nil => exact ht
  | cons first _ ih => exact ih (ht.made first)

theorem lawful (h : Made w calls v) (hn : .recreate ∉ calls) (hl : Lawful w.diary) :
    Lawful v.diary := by
  induction h with
  | nil => exact hl
  | cons first _ ih =>
    refine ih (fun hc => hn (List.mem_cons_of_mem _ hc)) ?_
    rw [(Watched.perform_eq first).2]
    refine hl.cons fun f hf => ?_
    cases hf
    exact absurd List.mem_cons_self hn

end Made

end Diaries

/-- What holds of a controller and its frame between two commands. -/
structure Faithful {φ : Type} [HostFrame φ] [Readable φ] (c : Controller) (w : Watched φ) :
    Prop where
  tracked : Tracked w
  attributes : c.transport = .attributes
  layers : Layers (Requested w.diary) (writes w.diary)
  last : ∀ s, c.last = some s → Requested w.diary s
  lawful : Lawful w.diary

namespace Faithful

variable {φ : Type} [HostFrame φ] [Readable φ] {c : Controller} {w : Watched φ}

theorem entered (h : Faithful c w) {v : Watched φ} {m : Mark φ} (hd : v.diary = m :: w.diary)
    (hw : m.write? = none) (ht : Tracked v)
    (hm : ∀ f, m = .call .recreate (.ok ()) f → Recreated w.diary f) : Faithful c v := by
  refine ⟨ht, h.attributes, ?_, ?_, ?_⟩
  · rw [hd, writes_cons_none hw]
    exact h.layers.mono fun _ hs => List.mem_cons_of_mem _ hs
  · intro s hs
    rw [hd]
    exact List.mem_cons_of_mem _ (h.last s hs)
  · rw [hd]
    exact h.lawful.cons hm

theorem mark (h : Faithful c w) (command : Command) :
    Faithful c (w.mark (.command command)) :=
  h.entered rfl rfl (h.tracked.mark command) fun _ hf => nomatch hf

theorem note (h : Faithful c w) (n : Log.Notice) : Faithful c (HostFrame.note n w) :=
  { h with tracked := h.tracked.note n }

theorem blur (h : Faithful c w) : Faithful c (HostFrame.blur w) :=
  h.entered rfl rfl h.tracked.blur fun _ hf => nomatch hf

theorem remember (h : Faithful c w) {s : Selection} (hs : Requested w.diary s) :
    Faithful { c with last := some s } w where
  tracked := h.tracked
  attributes := h.attributes
  layers := h.layers
  last _ hl := Option.some.inj hl ▸ hs
  lawful := h.lawful

theorem failed (h : Faithful c w) {call : FrameCall} {reason : String} {v : Watched φ}
    (hf : HostFrame.perform call w = (.error reason, v)) : Faithful c v :=
  h.entered (Watched.perform_eq hf).2 rfl (h.tracked.failed hf) fun _ hc => nomatch hc

theorem recreated (h : Faithful c w)
    (ht : Torn (writes w.diary) → w.diary.head? = some (.command .hardReset)) :
    Recreated w.diary w.frame where
  reads := h.tracked.carried
  layers := h.layers
  whole hn := by
    rw [h.tracked.carried]
    exact h.layers.whole hn
  torn := ht

theorem recreate (h : Faithful c w)
    (ht : Torn (writes w.diary) → w.diary.head? = some (.command .hardReset))
    {answer : Except String Unit} {v : Watched φ}
    (hv : HostFrame.perform .recreate w = (answer, v)) : Faithful c v := by
  cases answer with
  | error reason => exact h.failed hv
  | ok =>
    refine h.entered (Watched.perform_eq hv).2 rfl (h.tracked.made hv) fun f hf => ?_
    cases hf
    exact h.recreated ht

theorem part (h : Faithful c w) {s : Selection} {p : Parameters} (hs : Requested w.diary s)
    (hp : s.parameters = .ok p) {sets : List FrameCall} {v : Watched φ}
    (hf : sets.filterMap FrameCall.write? <+: p.toAttributes) (hn : .recreate ∉ sets)
    (hm : Made w sets v) : Faithful c v := by
  have hsub : ∀ {m}, m ∈ w.diary → m ∈ v.diary := fun hm' => hm.diary.subset hm'
  refine ⟨hm.tracked h.tracked, h.attributes, ?_, fun s hl => hsub (h.last s hl),
    hm.lawful hn h.lawful⟩
  have hl := h.layers.mono fun _ hs => hsub hs
  rw [hm.writes]
  by_cases hne : sets.filterMap FrameCall.write? = []
  · rw [hne]
    exact hl
  · exact .cons (hsub hs) hp hne hf hl

theorem send (h : Faithful c w) {s : Selection} (hs : Requested w.diary s) :
    Faithful (c.sendBoot s w).2.1 (c.sendBoot s w).2.2 := by
  have hsent := Sent.of_sendBoot c s w
  generalize c.sendBoot s w = result at hsent
  have hb : Requested (HostFrame.blur w).diary s := List.mem_cons_of_mem _ hs
  cases hsent with
  | refused => exact h.blur
  | @delivered p k readable made =>
    obtain ⟨sets, hcalls, hwrites, hn⟩ := deliveryCalls_attributes p
    rw [h.attributes, hcalls] at made
    obtain ⟨g, hsets, hlast⟩ := made.last
    have hg := h.blur.part hb readable (hwrites ▸ List.prefix_rfl) hn hsets
    have ht : ¬ Torn (writes g.diary) := by
      rintro ⟨name, value, rest, hw, hne⟩
      rw [hsets.writes, hwrites] at hw
      exact hne (Prod.mk.inj (List.cons.inj hw).1).1.symm
    have hk := hg.recreate (fun ht' => absurd ht' ht) hlast
    refine (hk.remember ?_).note _
    rw [(Watched.perform_eq hlast).2]
    exact List.mem_cons_of_mem _ (hsets.diary.subset hb)
  | @stopped p done call reason k readable broken =>
    obtain ⟨sets, hcalls, hwrites, hn⟩ := deliveryCalls_attributes p
    rw [h.attributes, hcalls] at broken
    have hd : done <+: sets := by
      rcases broken.at_last with ⟨rfl, -⟩ | ⟨hd, -⟩
      · exact List.prefix_rfl
      · exact hd
    obtain ⟨g, hm, hf⟩ := broken.fails
    have hg := h.blur.part hb readable (hwrites ▸ hd.filterMap _) (fun hc => hn (hd.subset hc)) hm
    exact hg.failed hf

theorem obey (h : Faithful c w) (command : Command) :
    Faithful (c.obey command (w.mark (.command command))).2.1
      (c.obey command (w.mark (.command command))).2.2 := by
  have hm := h.mark command
  cases command with
  | send s => exact hm.send List.mem_cons_self
  | restart =>
    cases hl : c.last with
    | none => simpa only [Controller.obey, Controller.restart, hl] using hm
    | some s => simpa only [Controller.obey, Controller.restart, hl] using hm.send (hm.last s hl)
  | hardReset =>
    rcases hp : HostFrame.perform .recreate (HostFrame.note .resetRequested
      (w.mark (.command .hardReset))) with ⟨answer, v⟩
    have hr := (hm.note .resetRequested).recreate (fun _ => rfl) hp
    rw [Controller.obey, c.hardReset_eq _ hp]
    exact hr

end Faithful

section Laws

variable {φ : Type} [HostFrame φ] [Readable φ] {f : φ}

theorem after_faithful (hp : Present f) (hb : Bare f) (h : List Command) :
    Faithful (after .attributes f h).1 (after .attributes f h).2 := by
  induction h with
  | nil =>
    refine ⟨⟨hp, fun name hn => hb name hn⟩, rfl, .nil, nofun, fun ys _ _ hd => ?_⟩
    simp [after] at hd
  | cons command h ih => exact ih.obey command

/-- Whenever a frame is recreated, the newest write of each attribute is what it carries, and the
writes are layers. If the newest write is of the last attribute it carries one request or none. If
it is not, then a send was cut short and this is a hard reset: it alone recreates a frame that
carries parts of requests. -/
theorem recreated_law (hp : Present f) (hb : Bare f) (h : List Command) {ys : List (Mark φ)}
    {g : φ} {past : List (Mark φ)}
    (hd : (after .attributes f h).2.diary = ys ++ .call .recreate (.ok ()) g :: past) :
    Recreated past g :=
  (after_faithful hp hb h).lawful ys g past hd

end Laws

end Chip8Frame.Control

namespace Chip8Frame.Browser.FrameHandle

open Control

def Sample.capped : FrameHandle := Sample.iframe [("set_attribute:data-speed", .string "quota")]

def Sample.cut : List Command := [.hardReset, .send Sample.pong]

theorem Sample.cut_recreates : ∃ g past,
    (after .attributes Sample.capped Sample.cut).2.diary =
        [] ++ .call .recreate (.ok ()) g :: past ∧
      carried g = { Boot.Parameters.absent with program := some "PONG" } ∧
      writes past = [(Boot.Parameters.programAttribute, some "PONG")] :=
  ⟨_, _, rfl, by decide +kernel, by decide +kernel⟩

theorem recreated_law_of_cut : ∃ g past,
    (after .attributes Sample.capped Sample.cut).2.diary =
        [] ++ .call .recreate (.ok ()) g :: past ∧
      Recreated past g ∧ Torn (writes past) := by
  obtain ⟨g, past, hd, -, hw⟩ := Sample.cut_recreates
  have hlaw := recreated_law (Sample.iframe_present _) (Sample.iframe_bare _) Sample.cut hd
  exact ⟨g, past, hd, hlaw, _, _, _, hw, by decide⟩

/-- A hard reset after a send that was cut short loads a context from a part of a request. -/
theorem recreated_from_part :
    ¬ ∀ (f : FrameHandle) h ys g past, Present f → Bare f →
      (after .attributes f h).2.diary = ys ++ .call .recreate (.ok ()) g :: past →
        Whole (Requested past) (carried g) := by
  intro hn
  obtain ⟨g, past, hd, hc, -⟩ := Sample.cut_recreates
  have hwhole := hn Sample.capped Sample.cut [] g past (Sample.iframe_present _)
    (Sample.iframe_bare _) hd
  rw [hc] at hwhole
  rcases hwhole with ha | ⟨s, -, hs⟩
  · simp [Boot.Parameters.absent] at ha
  · rcases s.parameters_cases with ⟨theme, -, hp⟩ | ⟨e, -, hp⟩
    · rw [hp] at hs
      simp [Boot.Parameters.absent] at hs
    · rw [hp] at hs
      cases hs

end Chip8Frame.Browser.FrameHandle
