import Chip8Frame.Proofs.Acceptance

/-! What parameters resolve to, over all texts: one configuration if every parameter is there and
the speed is a numeral in range, and the first of their faults if not. Trimming and faults are
described by what they mean; the order in which faults are told is a number for each of them. -/

namespace Chip8Frame.Text

/-- What is left of a text without the blank characters around it. -/
structure Trimmed (s t : String) : Prop where
  around : ∃ a b, s.toList = a ++ t.toList ++ b ∧
    (∀ c ∈ a, isBlank c = true) ∧ ∀ c ∈ b, isBlank c = true
  first : ∀ c ∈ t.toList.head?, isBlank c = false
  last : ∀ c ∈ t.toList.getLast?, isBlank c = false

section Ends

variable {cs : List Char} {c : Char}

theorem stripStart_blank {a : List Char} (h : ∀ c ∈ a, isBlank c = true) :
    stripStart (a ++ cs) = stripStart cs :=
  List.dropWhile_append_of_pos h

theorem stripEnd_blank {b : List Char} (h : ∀ c ∈ b, isBlank c = true) :
    stripEnd (cs ++ b) = stripEnd cs := by
  unfold stripEnd
  rw [List.reverse_append, List.dropWhile_append_of_pos]
  intro c hc
  exact h c (List.mem_reverse.mp hc)

theorem stripStart_eq_self (h : ∀ c ∈ cs.head?, isBlank c = false) : stripStart cs = cs := by
  cases cs with
  | nil => rfl
  | cons c cs => exact List.dropWhile_cons_of_neg (by simp [h c rfl])

theorem stripEnd_eq_self (h : ∀ c ∈ cs.getLast?, isBlank c = false) : stripEnd cs = cs := by
  have hrev : stripStart cs.reverse = cs.reverse :=
    stripStart_eq_self fun c hc => h c (by rwa [List.head?_reverse] at hc)
  exact (congrArg List.reverse hrev).trans cs.reverse_reverse

theorem head?_strip (h : c ∈ (strip cs).head?) : isBlank c = false := by
  obtain ⟨b, hb⟩ : strip cs <+: stripStart cs := List.rdropWhile_prefix isBlank (stripStart cs)
  have hc : (cs.dropWhile isBlank).head? = some c := by
    show (stripStart cs).head? = some c
    rw [← hb, List.head?_append, Option.mem_def.mp h]
    rfl
  have hfirst := List.head?_dropWhile_not isBlank cs
  rwa [hc] at hfirst

theorem getLast?_stripEnd (h : c ∈ (stripEnd cs).getLast?) : isBlank c = false := by
  have hne : stripEnd cs ≠ [] := by
    intro hn
    simp [hn] at h
  have hlast : ¬ isBlank ((stripEnd cs).getLast hne) = true := List.rdropWhile_last_not _ _ hne
  rw [List.getLast?_eq_some_getLast hne, Option.mem_some_iff] at h
  simpa [h] using hlast

end Ends

theorem trim_eq_iff {s t : String} : trim s = t ↔ Trimmed s t := by
  constructor
  · rintro rfl
    obtain ⟨a, b, hs, ha, hb⟩ := strip_decompose s.toList
    have ht : (trim s).toList = strip s.toList := String.toList_ofList
    constructor <;> rw [ht]
    · exact ⟨a, b, hs, ha, hb⟩
    · exact fun c hc => head?_strip hc
    · exact fun c hc => getLast?_stripEnd hc
  · rintro ⟨⟨a, b, hs, ha, hb⟩, hfirst, hlast⟩
    have hstart : stripStart s.toList = t.toList ++ b ∨ t.toList = [] := by
      cases ht : t.toList with
      | nil => exact .inr rfl
      | cons c cs =>
        refine .inl ?_
        rw [hs, List.append_assoc, stripStart_blank ha, ht]
        exact stripStart_eq_self fun d hd => hfirst d (by rwa [ht])
    rcases hstart with hstart | hempty
    · rw [trim, strip, hstart, stripEnd_blank hb, stripEnd_eq_self hlast, String.ofList_toList]
    · obtain rfl := String.toList_eq_nil_iff.mp hempty
      refine trim_eq_empty.mpr fun c hc => ?_
      rw [hs, hempty, List.append_nil] at hc
      exact (List.mem_append.mp hc).elim (ha c) (hb c)

theorem Numeral.unique {text : List Char} {n m : Nat} (h : Numeral text n) (h' : Numeral text m) :
    n = m :=
  Option.some.inj ((readNat?_eq_some.mpr h).symm.trans (readNat?_eq_some.mpr h'))

end Chip8Frame.Text

namespace Chip8Frame.Boot

open Text (Blank Numeral Trimmed)

def Given (text : Option String) (t : String) : Prop := ∃ s, text = some s ∧ Trimmed s t ∧ t ≠ ""

def Lacking (text : Option String) : Prop := ∀ s, text = some s → Blank s

section Texts

variable {text : Option String} {t t' : String}

theorem filled?_given : filled? text = some t ↔ Given text t := by
  simp only [filled?_eq_some, Text.trim_eq_iff, Given]

theorem filled?_lacking : filled? text = none ↔ Lacking text := by
  cases text with
  | none => exact iff_of_true rfl fun s hs => nomatch hs
  | some s =>
    rcases filled?_some_cases s with ⟨hb, hf⟩ | ⟨hb, hf⟩
    · exact iff_of_true hf fun _ hs => Option.some.inj hs ▸ hb
    · exact iff_of_false (by simp [hf]) fun h => hb (h s rfl)

theorem Given.unique (h : Given text t) (h' : Given text t') : t = t' :=
  Option.some.inj ((filled?_given.mpr h).symm.trans (filled?_given.mpr h'))

theorem Given.not_lacking (h : Given text t) : ¬ Lacking text := by
  intro hl
  have hn := filled?_lacking.mpr hl
  rw [filled?_given.mpr h] at hn
  cases hn

end Texts

/-- What can be wrong with parameters, every fault by itself. -/
inductive Parameters.Faulty (p : Parameters) : ConfigError → Prop where
  | program (h : Lacking p.program) : p.Faulty .missingProgram
  | speed (h : Lacking p.speed) : p.Faulty (.missingField Parameters.speedAttribute)
  | number {t : String} (h : Given p.speed t)
      (hn : ∀ n, Numeral t.toList n → ¬ (1 ≤ n ∧ n ≤ 2 ^ 32 - 1)) : p.Faulty (.invalidSpeed t)
  | foreground (h : Lacking p.foreground) :
      p.Faulty (.missingField Parameters.foregroundAttribute)
  | background (h : Lacking p.background) :
      p.Faulty (.missingField Parameters.backgroundAttribute)

/-- The place of a fault in the order in which they are told. -/
def ConfigError.place : ConfigError → Nat
  | missingProgram => 0
  | missingField name =>
      if name = Parameters.speedAttribute then 1
      else if name = Parameters.foregroundAttribute then 3
      else 4
  | invalidSpeed _ => 2

@[simp] theorem place_missingProgram : ConfigError.missingProgram.place = 0 := rfl

@[simp] theorem place_missingSpeed :
    (ConfigError.missingField Parameters.speedAttribute).place = 1 := rfl

@[simp] theorem place_invalidSpeed (t : String) : (ConfigError.invalidSpeed t).place = 2 := rfl

@[simp] theorem place_missingForeground :
    (ConfigError.missingField Parameters.foregroundAttribute).place = 3 := rfl

@[simp] theorem place_missingBackground :
    (ConfigError.missingField Parameters.backgroundAttribute).place = 4 := rfl

/-- The configuration that the parameters describe. -/
structure Config.Holds (c : Config) (p : Parameters) (w : Binary64) (o : Options) : Prop where
  program : Given p.program c.program
  path : c.path = o.resourceRoot ++ c.program
  speed : ∃ t, Given p.speed t ∧ Numeral t.toList c.speed.toNat ∧ 1 ≤ c.speed.toNat
  foreground : Given p.foreground c.foreground
  background : Given p.background c.background
  variant : c.variant = o.variant
  pixelSize : c.pixelSize = Boot.pixelSize w o.variant

section Faults

variable {p : Parameters} {e e' : ConfigError} {w : Binary64} {o : Options} {c c' : Config}

theorem Parameters.Faulty.eq_of_place (h : p.Faulty e) (h' : p.Faulty e')
    (hp : e.place = e'.place) : e = e' := by
  cases h with
  | number h =>
    cases h' with
    | number h' => rw [h.unique h']
    | _ => cases hp
  | _ => cases h' <;> first | rfl | cases hp

theorem exists_speed_iff {t : String} :
    (∃ speed, Speed t speed) ↔ ∃ n, Numeral t.toList n ∧ 1 ≤ n ∧ n ≤ 2 ^ 32 - 1 := by
  constructor
  · rintro ⟨speed, hn, hpos⟩
    have hlt := speed.toNat_lt
    exact ⟨_, hn, hpos, by omega⟩
  · rintro ⟨n, hn, hpos, hle⟩
    have hsize : UInt32.size = 2 ^ 32 := rfl
    have hlt : n < UInt32.size := by omega
    refine ⟨UInt32.ofNat n, ?_, ?_⟩ <;> rw [UInt32.toNat_ofNat_of_lt' hlt]
    · exact hn
    · exact hpos

theorem Config.Holds.not_faulty (h : c.Holds p w o) : ¬ p.Faulty e := by
  obtain ⟨t, ht, hn, hpos⟩ := h.speed
  intro he
  cases he with
  | program hl => exact h.program.not_lacking hl
  | speed hl => exact ht.not_lacking hl
  | number ht' hno =>
    obtain rfl := ht.unique ht'
    have hlt := c.speed.toNat_lt
    exact hno _ hn ⟨hpos, by omega⟩
  | foreground hl => exact h.foreground.not_lacking hl
  | background hl => exact h.background.not_lacking hl

theorem Config.Holds.unique (h : c.Holds p w o) (h' : c'.Holds p w o) : c = c' := by
  obtain ⟨t, ht, hn, -⟩ := h.speed
  obtain ⟨t', ht', hn', -⟩ := h'.speed
  obtain rfl := ht.unique ht'
  have hspeed : c.speed = c'.speed := UInt32.toNat_inj.mp (hn.unique hn')
  have hprogram := h.program.unique h'.program
  have hpath : c.path = c'.path := by rw [h.path, h'.path, hprogram]
  have hforeground := h.foreground.unique h'.foreground
  have hbackground := h.background.unique h'.background
  have hvariant := h.variant.trans h'.variant.symm
  have hsize := h.pixelSize.trans h'.pixelSize.symm
  cases c
  cases c'
  simp_all

section Order

variable (he : p.Faulty e)

include he

theorem Parameters.Faulty.past_program (hp : ¬ Lacking p.program) : 1 ≤ e.place := by
  cases he with
  | program h => exact absurd h hp
  | _ => simp

theorem Parameters.Faulty.past_speed (hp : ¬ Lacking p.program) (hs : ¬ Lacking p.speed) :
    2 ≤ e.place := by
  cases he with
  | program h => exact absurd h hp
  | speed h => exact absurd h hs
  | _ => simp

theorem Parameters.Faulty.past_number {t : String} {speed : UInt32} (hp : ¬ Lacking p.program)
    (hs : Given p.speed t) (hn : Speed t speed) : 3 ≤ e.place := by
  cases he with
  | program h => exact absurd h hp
  | speed h => exact absurd h hs.not_lacking
  | number h hno =>
    obtain rfl := hs.unique h
    obtain ⟨n, hnum, hin⟩ := exists_speed_iff.mp ⟨speed, hn⟩
    exact absurd hin (hno n hnum)
  | _ => simp

theorem Parameters.Faulty.past_foreground {t : String} {speed : UInt32} (hp : ¬ Lacking p.program)
    (hs : Given p.speed t) (hn : Speed t speed) (hf : ¬ Lacking p.foreground) : 4 ≤ e.place := by
  have hnumber := he.past_number hp hs hn
  cases he with
  | foreground h => exact absurd h hf
  | background => simp
  | _ => simp at hnumber

end Order

theorem faulty_of_resolve (h : p.resolve w o = .error e) :
    p.Faulty e ∧ ∀ e', p.Faulty e' → e.place ≤ e'.place := by
  have hr := Resolved.of_resolve p w o
  rw [h] at hr
  cases hr with
  | noProgram hp => exact ⟨.program (filled?_lacking.mp hp), fun _ _ => Nat.zero_le _⟩
  | noSpeed hp hs =>
    have hprogram := (filled?_given.mp hp).not_lacking
    exact ⟨.speed (filled?_lacking.mp hs), fun e' he => he.past_program hprogram⟩
  | badSpeed hp hs hn =>
    have hprogram := (filled?_given.mp hp).not_lacking
    have hspeed := filled?_given.mp hs
    refine ⟨.number hspeed fun n hnum hin => ?_, fun e' he =>
      he.past_speed hprogram hspeed.not_lacking⟩
    obtain ⟨speed, hread⟩ := exists_speed_iff.mpr ⟨n, hnum, hin⟩
    exact hn speed hread
  | noForeground hp hs hn hf =>
    have hprogram := (filled?_given.mp hp).not_lacking
    exact ⟨.foreground (filled?_lacking.mp hf), fun e' he =>
      he.past_number hprogram (filled?_given.mp hs) hn⟩
  | noBackground hp hs hn hf hb =>
    have hprogram := (filled?_given.mp hp).not_lacking
    have hforeground := (filled?_given.mp hf).not_lacking
    exact ⟨.background (filled?_lacking.mp hb), fun e' he =>
      he.past_foreground hprogram (filled?_given.mp hs) hn hforeground⟩

theorem holds_of_resolve (h : p.resolve w o = .ok c) : c.Holds p w o := by
  have hr := Resolved.of_resolve p w o
  rw [h] at hr
  cases hr with
  | @ready program text foreground background speed hp hs hn hf hb =>
    exact {
      program := filled?_given.mp hp
      path := rfl
      speed := ⟨text, filled?_given.mp hs, hn.1, hn.2⟩
      foreground := filled?_given.mp hf
      background := filled?_given.mp hb
      variant := rfl
      pixelSize := rfl }

theorem resolve_eq_ok_iff : p.resolve w o = .ok c ↔ c.Holds p w o := by
  refine ⟨holds_of_resolve, fun h => ?_⟩
  cases hr : p.resolve w o with
  | error e => exact absurd (faulty_of_resolve hr).1 h.not_faulty
  | ok c' => rw [(holds_of_resolve hr).unique h]

theorem resolve_eq_error_iff :
    p.resolve w o = .error e ↔ p.Faulty e ∧ ∀ e', p.Faulty e' → e.place ≤ e'.place := by
  refine ⟨faulty_of_resolve, fun ⟨he, hfirst⟩ => ?_⟩
  cases hr : p.resolve w o with
  | error e' =>
    obtain ⟨he', hfirst'⟩ := faulty_of_resolve hr
    rw [he'.eq_of_place he (Nat.le_antisymm (hfirst' e he) (hfirst e' he'))]
  | ok c => exact absurd he (holds_of_resolve hr).not_faulty

end Faults

/-- What holds of every attempt to resolve parameters. -/
structure Resolution (p : Parameters) (w : Binary64) (o : Options) : Prop where
  accepted : (∃ c, p.resolve w o = .ok c) ↔ (∃ t, Given p.program t) ∧
    (∃ t n, Given p.speed t ∧ Numeral t.toList n ∧ 1 ≤ n ∧ n ≤ 2 ^ 32 - 1) ∧
    (∃ t, Given p.foreground t) ∧ ∃ t, Given p.background t
  config : ∀ c, p.resolve w o = .ok c ↔ c.Holds p w o
  refused : ∀ e, p.resolve w o = .error e ↔
    p.Faulty e ∧ ∀ e', p.Faulty e' → e.place ≤ e'.place

theorem resolution (p : Parameters) (w : Binary64) (o : Options) : Resolution p w o where
  accepted := by
    constructor
    · rintro ⟨c, hc⟩
      have h := holds_of_resolve hc
      obtain ⟨t, ht, hn, hpos⟩ := h.speed
      have hspeed := exists_speed_iff.mp ⟨c.speed, hn, hpos⟩
      exact ⟨⟨_, h.program⟩, ⟨t, hspeed.imp fun n hn => ⟨ht, hn⟩⟩, ⟨_, h.foreground⟩,
        _, h.background⟩
    · rintro ⟨⟨program, hp⟩, ⟨t, n, ht, hn⟩, ⟨foreground, hf⟩, background, hb⟩
      obtain ⟨speed, hs⟩ := exists_speed_iff.mpr ⟨n, hn⟩
      exact ⟨⟨program, o.programPath program, speed, pixelSize w o.variant, foreground, background,
        o.variant⟩, resolve_eq_ok_iff.mpr ⟨hp, rfl, ⟨t, ht, hs.1, hs.2⟩, hf, hb, rfl, rfl⟩⟩
  config _ := resolve_eq_ok_iff
  refused _ := resolve_eq_error_iff

end Chip8Frame.Boot
