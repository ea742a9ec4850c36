import Chip8Frame.Control.Selection
import Chip8Frame.Proofs.Rebuilding

/-! Which tokens are themes. A token has two parts, before and after its first comma, or its first
colon if it has no comma; it is a theme if neither part is blank, and the colours are what trimming
leaves of them. Two colours that are written with a separator between them are read back unless the
separator comes earlier. -/

namespace Chip8Frame.Text

section Trimming

variable {s t : String}

theorem Trimmed.subset (h : Trimmed s t) : t.toList ⊆ s.toList := by
  obtain ⟨a, b, hs, -, -⟩ := h.around
  intro c hc
  rw [hs]
  simp [hc]

theorem Trimmed.countP (h : Trimmed s t) :
    s.toList.countP (!isBlank ·) = t.toList.countP (!isBlank ·) := by
  have hblank : ∀ {cs : List Char}, (∀ c ∈ cs, isBlank c = true) →
      cs.countP (!isBlank ·) = 0 := by
    intro cs hcs
    exact List.countP_eq_zero.mpr fun c hc => by simp [hcs c hc]
  obtain ⟨a, b, hs, ha, hb⟩ := h.around
  rw [hs, List.countP_append, List.countP_append, hblank ha, hblank hb]
  omega

end Trimming

end Chip8Frame.Text

namespace Chip8Frame.Control

open Text (Blank Trimmed)

section Cuts

variable {x : Char} {cs a b : List Char}

theorem cut?_eq_none : cut? x cs = none ↔ x ∉ cs := by
  induction cs with
  | nil => simp [cut?]
  | cons c cs ih =>
    rw [cut?]
    split
    · next h => simp [h]
    · next h => rw [Option.map_eq_none_iff, ih, List.mem_cons, not_or, and_iff_right (Ne.symm h)]

theorem cut?_append (ha : x ∉ a) : cut? x (a ++ x :: b) = some (a, b) := by
  induction a with
  | nil => simp [cut?]
  | cons c a ih =>
    obtain ⟨hc, ha⟩ := not_or.mp (mt List.mem_cons.mpr ha)
    rw [List.cons_append, cut?, if_neg (Ne.symm hc), ih ha, Option.map_some]

theorem cut?_eq_some : cut? x cs = some (a, b) ↔ cs = a ++ x :: b ∧ x ∉ a := by
  constructor
  · intro h
    have hx : x ∈ cs := by
      by_contra hn
      rw [cut?_eq_none.mpr hn] at h
      cases h
    obtain ⟨a', b', rfl, ha'⟩ := List.eq_append_cons_of_mem hx
    rw [cut?_append ha'] at h
    cases h
    exact ⟨rfl, ha'⟩
  · rintro ⟨rfl, ha⟩
    exact cut?_append ha

end Cuts

/-- The two parts of a token. A comma goes before a colon. -/
inductive Parts (token : String) (a b : List Char) : Prop where
  | comma (h : token.toList = a ++ ',' :: b) (ha : ',' ∉ a)
  | colon (hc : ',' ∉ token.toList) (h : token.toList = a ++ ':' :: b) (ha : ':' ∉ a)

section Tokens

variable {token : String} {a b : List Char}

theorem parts_iff :
    (cut? ',' token.toList).or (cut? ':' token.toList) = some (a, b) ↔ Parts token a b := by
  constructor
  · intro h
    cases hc : cut? ',' token.toList with
    | some p =>
      rw [hc, Option.some_or] at h
      obtain rfl := Option.some.inj h
      obtain ⟨hs, ha⟩ := cut?_eq_some.mp hc
      exact .comma hs ha
    | none =>
      rw [hc, Option.none_or] at h
      obtain ⟨hs, ha⟩ := cut?_eq_some.mp h
      exact .colon (cut?_eq_none.mp hc) hs ha
  · rintro (⟨hs, ha⟩ | ⟨hc, hs, ha⟩)
    · rw [cut?_eq_some.mpr ⟨hs, ha⟩, Option.some_or]
    · rw [cut?_eq_none.mpr hc, Option.none_or, cut?_eq_some.mpr ⟨hs, ha⟩]

theorem Parts.unique {a' b' : List Char} (h : Parts token a b) (h' : Parts token a' b') :
    a = a' ∧ b = b' :=
  Prod.mk.inj (Option.some.inj ((parts_iff.mpr h).symm.trans (parts_iff.mpr h')))

/-- Without a comma in the token there is none in a part, and with one the cut is there. -/
theorem Parts.no_comma (h : Parts token a b) : ',' ∉ a := by
  cases h with
  | comma h ha => exact ha
  | colon hc h ha =>
    intro hm
    rw [h] at hc
    exact hc (List.mem_append_left _ hm)

end Tokens

/-- What trimming leaves of a part, if anything. -/
def Colour (part : List Char) (t : String) : Prop := Trimmed (String.ofList part) t ∧ t ≠ ""

section Colours

variable {part : List Char} {t : String}

theorem colour_iff : Colour part t ↔ String.ofList (Text.strip part) = t ∧ t ≠ "" := by
  rw [Colour, ← Text.trim_eq_iff, Text.trim, String.toList_ofList]

theorem exists_colour_iff : (∃ t, Colour part t) ↔ ¬ Blank (String.ofList part) := by
  rw [← Text.trim_eq_empty]
  constructor
  · rintro ⟨t, ht, hne⟩ hempty
    exact hne ((Text.trim_eq_iff.mpr ht).symm.trans hempty)
  · intro hne
    exact ⟨_, Text.trim_eq_iff.mp rfl, hne⟩

theorem Colour.unique {t' : String} (h : Colour part t) (h' : Colour part t') : t = t' :=
  (colour_iff.mp h).1.symm.trans (colour_iff.mp h').1

theorem Colour.subset (h : Colour part t) : t.toList ⊆ part := by
  have hs := h.1.subset
  rwa [String.toList_ofList] at hs

theorem Colour.countP (h : Colour part t) :
    part.countP (!Text.isBlank ·) = t.toList.countP (!Text.isBlank ·) := by
  have hc := h.1.countP
  rwa [String.toList_ofList] at hc

end Colours

section Reading

variable {token : String} {a b : List Char} {t : Theme}

theorem read_of_parts (h : Parts token a b) :
    (∃ t, Theme.read token = .ok t ∧ Colour a t.foreground ∧ Colour b t.background) ∨
      (Blank (String.ofList a) ∨ Blank (String.ofList b)) ∧
        Theme.read token = .error (.invalidTheme token) := by
  have hblank : ∀ {part : List Char},
      String.ofList (Text.strip part) = "" ↔ Blank (String.ofList part) := by
    intro part
    rw [← Text.trim_eq_empty, Text.trim, String.toList_ofList]
  simp only [Theme.read, parts_iff.mpr h]
  split
  · next hempty => exact .inr ⟨hempty.imp hblank.mp hblank.mp, rfl⟩
  · next hfull =>
    obtain ⟨ha, hb⟩ := not_or.mp hfull
    exact .inl ⟨_, rfl, colour_iff.mpr ⟨rfl, ha⟩, colour_iff.mpr ⟨rfl, hb⟩⟩

theorem read_of_whole (h : ∀ a b, ¬ Parts token a b) :
    Theme.read token = .error (.invalidTheme token) := by
  have hn : (cut? ',' token.toList).or (cut? ':' token.toList) = none :=
    Option.eq_none_iff_forall_ne_some.mpr fun p hp => h p.1 p.2 (parts_iff.mp hp)
  simp only [Theme.read, hn]

theorem token_cases (token : String) :
    (∃ t a b, Theme.read token = .ok t ∧ Parts token a b ∧ Colour a t.foreground ∧
        Colour b t.background) ∨
      (∀ a b, Parts token a b → Blank (String.ofList a) ∨ Blank (String.ofList b)) ∧
        Theme.read token = .error (.invalidTheme token) := by
  by_cases h : ∃ a b, Parts token a b
  · obtain ⟨a, b, hp⟩ := h
    rcases read_of_parts hp with ⟨t, hr, hf, hb⟩ | ⟨hblank, hr⟩
    · exact .inl ⟨t, a, b, hr, hp, hf, hb⟩
    · refine .inr ⟨fun a' b' hp' => ?_, hr⟩
      obtain ⟨rfl, rfl⟩ := hp.unique hp'
      exact hblank
  · have hn : ∀ a b, ¬ Parts token a b := fun a b hp => h ⟨a, b, hp⟩
    exact .inr ⟨fun a b hp => absurd hp (hn a b), read_of_whole hn⟩

theorem read_eq_ok_iff : Theme.read token = .ok t ↔
    ∃ a b, Parts token a b ∧ Colour a t.foreground ∧ Colour b t.background := by
  rcases token_cases token with ⟨t', a, b, hr, hp, hf, hb⟩ | ⟨hblank, hr⟩ <;> rw [hr]
  · constructor
    · intro h
      cases h
      exact ⟨a, b, hp, hf, hb⟩
    · rintro ⟨a', b', hp', hf', hb'⟩
      obtain ⟨rfl, rfl⟩ := hp.unique hp'
      have hforeground := hf.unique hf'
      have hbackground := hb.unique hb'
      cases t
      cases t'
      simp_all
  · refine iff_of_false nofun ?_
    rintro ⟨a, b, hp, hf, hb⟩
    exact (hblank a b hp).elim (exists_colour_iff.mp ⟨_, hf⟩) (exists_colour_iff.mp ⟨_, hb⟩)

theorem read_eq_error_iff {e : Error} : Theme.read token = .error e ↔
    e = .invalidTheme token ∧
      ∀ a b, Parts token a b → Blank (String.ofList a) ∨ Blank (String.ofList b) := by
  rcases token_cases token with ⟨t, a, b, hr, hp, hf, hb⟩ | ⟨hblank, hr⟩ <;> rw [hr]
  · refine iff_of_false nofun ?_
    rintro ⟨-, hblank⟩
    exact (hblank a b hp).elim (exists_colour_iff.mp ⟨_, hf⟩) (exists_colour_iff.mp ⟨_, hb⟩)
  · constructor
    · intro h
      cases h
      exact ⟨rfl, hblank⟩
    · rintro ⟨rfl, -⟩
      rfl

end Reading

def Theme.token (t : Theme) (separator : String) : String :=
  t.foreground ++ separator ++ t.background

def Tidy (t : String) : Prop := Trimmed t t ∧ t ≠ ""

section Tokens

variable {t : Theme} {token : String} {a b : List Char}

theorem toList_token (t : Theme) (separator : String) : (t.token separator).toList =
    t.foreground.toList ++ (separator.toList ++ t.background.toList) := by
  simp only [Theme.token, String.toList_append, List.append_assoc]

theorem Colour.tidy {part : List Char} {s : String} (h : Colour part s) : Tidy s :=
  ⟨h.1.again, h.2⟩

theorem Tidy.colour {s : String} (h : Tidy s) : Colour s.toList s := by
  refine ⟨?_, h.2⟩
  rw [String.ofList_toList]
  exact h.1

theorem colours_of_read (h : Theme.read token = .ok t) :
    Tidy t.foreground ∧ Tidy t.background ∧ ',' ∉ t.foreground.toList := by
  obtain ⟨a, b, hp, hf, hb⟩ := read_eq_ok_iff.mp h
  exact ⟨hf.tidy, hb.tidy, fun hm => hp.no_comma (hf.subset hm)⟩

theorem read_comma_token : Theme.read (t.token ",") = .ok t ↔
    Tidy t.foreground ∧ Tidy t.background ∧ ',' ∉ t.foreground.toList := by
  refine ⟨colours_of_read, fun ⟨hf, hb, hn⟩ => ?_⟩
  exact read_eq_ok_iff.mpr ⟨_, _, .comma (toList_token t ",") hn, hf.colour, hb.colour⟩

theorem Colour.not_longer {part rest : List Char} {s : String} (h : Colour part s) :
    part ≠ s.toList ++ ':' :: rest := by
  intro hpart
  have hcolon : 0 < (':' :: rest).countP (!Text.isBlank ·) :=
    List.countP_pos_iff.mpr ⟨':', List.mem_cons_self, by decide⟩
  have hcount := h.countP
  rw [hpart, List.countP_append] at hcount
  omega

theorem read_colon_token : Theme.read (t.token ":") = .ok t ↔
    Tidy t.foreground ∧ Tidy t.background ∧ ',' ∉ t.foreground.toList ∧
      ',' ∉ t.background.toList ∧ ':' ∉ t.foreground.toList := by
  have htoken : (t.token ":").toList = t.foreground.toList ++ ':' :: t.background.toList :=
    toList_token t ":"
  constructor
  · intro h
    obtain ⟨hf, hb, hn⟩ := colours_of_read h
    obtain ⟨a, b, hp, hfa, hbb⟩ := read_eq_ok_iff.mp h
    cases hp with
    | comma hs ha =>
      rcases List.append_eq_append_iff.mp (htoken.symm.trans hs) with
        ⟨rest, hrest, hcut⟩ | ⟨rest, hrest, hcut⟩
      · rcases List.cons_eq_append_iff.mp hcut with ⟨-, hcut⟩ | ⟨rest, rfl, -⟩
        · cases hcut
        · exact absurd hrest hfa.not_longer
      · rcases List.cons_eq_append_iff.mp hcut with ⟨-, hcut⟩ | ⟨rest, rfl, -⟩
        · cases hcut
        · exact absurd (by rw [hrest]; simp) hn
    | colon hc hs ha =>
      rw [htoken] at hc
      refine ⟨hf, hb, hn, fun hm => hc (by simp [hm]), fun hm => ha (hfa.subset hm)⟩
  · rintro ⟨hf, hb, hnf, hnb, hcolon⟩
    have hc : ',' ∉ (t.token ":").toList := by
      rw [htoken]
      simp [hnf, hnb]
    exact read_eq_ok_iff.mpr ⟨_, _, .colon hc htoken hcolon, hf.colour, hb.colour⟩

end Tokens

/-- What is read of a token, and of the tokens that are made of two colours. -/
structure ThemeLaw (token : String) (t : Theme) : Prop where
  accepted : (∃ t, Theme.read token = .ok t) ↔ ∃ a b, Parts token a b ∧
    ¬ Blank (String.ofList a) ∧ ¬ Blank (String.ofList b)
  theme : Theme.read token = .ok t ↔
    ∃ a b, Parts token a b ∧ Colour a t.foreground ∧ Colour b t.background
  refused : ∀ e, Theme.read token = .error e ↔ e = .invalidTheme token ∧
    ∀ a b, Parts token a b → Blank (String.ofList a) ∨ Blank (String.ofList b)
  /-- A theme that was read is read of its own token again. -/
  again : (∃ token, Theme.read token = .ok t) ↔ Theme.read (t.token ",") = .ok t
  comma : Theme.read (t.token ",") = .ok t ↔
    Tidy t.foreground ∧ Tidy t.background ∧ ',' ∉ t.foreground.toList
  colon : Theme.read (t.token ":") = .ok t ↔
    Tidy t.foreground ∧ Tidy t.background ∧ ',' ∉ t.foreground.toList ∧
      ',' ∉ t.background.toList ∧ ':' ∉ t.foreground.toList

theorem theme_law (token : String) (t : Theme) : ThemeLaw token t where
  accepted := by
    constructor
    · rintro ⟨t, h⟩
      obtain ⟨a, b, hp, hf, hb⟩ := read_eq_ok_iff.mp h
      exact ⟨a, b, hp, exists_colour_iff.mp ⟨_, hf⟩, exists_colour_iff.mp ⟨_, hb⟩⟩
    · rintro ⟨a, b, hp, ha, hb⟩
      obtain ⟨foreground, hf⟩ := exists_colour_iff.mpr ha
      obtain ⟨background, hb⟩ := exists_colour_iff.mpr hb
      exact ⟨⟨foreground, background⟩, read_eq_ok_iff.mpr ⟨a, b, hp, hf, hb⟩⟩
  theme := read_eq_ok_iff
  refused _ := read_eq_error_iff
  again := ⟨fun ⟨_, h⟩ => read_comma_token.mpr (colours_of_read h), fun h => ⟨_, h⟩⟩
  comma := read_comma_token
  colon := read_colon_token

end Chip8Frame.Control
