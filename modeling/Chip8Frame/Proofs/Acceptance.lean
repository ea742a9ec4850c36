import Mathlib.Data.List.DropRight
import Mathlib.Data.Nat.Digits.Defs
import Chip8Frame.Boot.Config

/-! Which parameters are accepted. Trimming leaves nothing of blank text only, a numeral is read by
its grammar, and a configuration is refused for the first parameter that is wrong. -/

namespace Chip8Frame.Text

def Blank (s : String) : Prop := ∀ c ∈ s.toList, isBlank c = true

section Trimming

theorem strip_decompose (cs : List Char) :
    ∃ a b, cs = a ++ strip cs ++ b ∧ (∀ c ∈ a, isBlank c = true) ∧ ∀ c ∈ b, isBlank c = true := by
  refine ⟨cs.takeWhile isBlank, (stripStart cs).rtakeWhile isBlank, ?_,
    fun _ hc => List.mem_takeWhile_imp hc, fun _ hc => List.mem_rtakeWhile_imp hc⟩
  have hend : strip cs ++ (stripStart cs).rtakeWhile isBlank = stripStart cs :=
    List.rdropWhile_append_rtakeWhile
  rw [List.append_assoc, hend]
  exact List.takeWhile_append_dropWhile.symm

theorem exists_mem_strip {cs : List Char} (h : strip cs ≠ []) :
    ∃ c ∈ strip cs, isBlank c = false := by
  have hlast : ¬ isBlank ((strip cs).getLast h) = true := List.rdropWhile_last_not _ _ h
  exact ⟨_, List.getLast_mem h, by simpa using hlast⟩

theorem strip_eq_nil {cs : List Char} : strip cs = [] ↔ ∀ c ∈ cs, isBlank c = true := by
  obtain ⟨a, b, hcs, ha, hb⟩ := strip_decompose cs
  constructor
  · intro h c hc
    rw [hcs, h, List.append_nil] at hc
    rcases List.mem_append.mp hc with hc | hc
    · exact ha c hc
    · exact hb c hc
  · intro h
    by_contra hn
    obtain ⟨c, hc, hf⟩ := exists_mem_strip hn
    have ht := h c (by rw [hcs]; simp [hc])
    rw [hf] at ht
    cases ht

theorem trim_eq_empty {s : String} : trim s = "" ↔ Blank s := by
  rw [trim, String.ofList_eq_empty_iff, strip_eq_nil]
  rfl

theorem not_blank_of_strip {cs : List Char} (h : String.ofList (strip cs) ≠ "") :
    ¬ Blank (String.ofList (strip cs)) := by
  intro hb
  obtain ⟨c, hc, hf⟩ := exists_mem_strip (mt String.ofList_eq_empty_iff.mpr h)
  have ht := hb c (by rwa [String.toList_ofList])
  rw [hf] at ht
  cases ht

end Trimming

/-- An optional plus sign and some ASCII digits, with their value. -/
def Numeral (text : List Char) (n : Nat) : Prop :=
  ∃ ds, (text = ds ∨ text = '+' :: ds) ∧ ds ≠ [] ∧ (∀ d ∈ ds, d.isDigit = true) ∧
    Nat.ofDigits 10 (ds.reverse.map fun d => d.toNat - '0'.toNat) = n

theorem digitsValue_eq (ds : List Char) :
    digitsValue ds = Nat.ofDigits 10 (ds.reverse.map fun d => d.toNat - '0'.toNat) := by
  induction ds using List.reverseRecOn with
  | nil => rfl
  | append_singleton ds d ih =>
    rw [List.reverse_append, List.reverse_singleton, List.singleton_append, List.map_cons,
      Nat.ofDigits_cons, ← ih, digitsValue, List.foldl_append]
    exact Nat.add_comm _ _

theorem readDigits?_eq_some {ds : List Char} {n : Nat} :
    readDigits? ds = some n ↔
      ds ≠ [] ∧ (∀ d ∈ ds, d.isDigit = true) ∧
        Nat.ofDigits 10 (ds.reverse.map fun d => d.toNat - '0'.toNat) = n := by
  rw [readDigits?, ← digitsValue_eq]
  by_cases h : ds ≠ [] ∧ ∀ d ∈ ds, d.isDigit = true
  · rw [if_pos (by simpa using h), Option.some.injEq]
    exact ⟨fun hn => ⟨h.1, h.2, hn⟩, fun hn => hn.2.2⟩
  · rw [if_neg (by simpa using h)]
    exact ⟨nofun, fun hn => absurd ⟨hn.1, hn.2.1⟩ h⟩

theorem readNat?_eq_some {text : List Char} {n : Nat} :
    readNat? text = some n ↔ Numeral text n := by
  have hplus : '+'.isDigit = false := by decide
  unfold readNat?
  split
  · next ds =>
    rw [readDigits?_eq_some]
    constructor
    · rintro ⟨hne, hd, hv⟩
      exact ⟨ds, .inr rfl, hne, hd, hv⟩
    · rintro ⟨es, rfl | h, hne, hd, hv⟩
      · have ht := hd '+' List.mem_cons_self
        rw [hplus] at ht
        cases ht
      · obtain rfl := (List.cons.inj h).2
        exact ⟨hne, hd, hv⟩
  · next hn =>
    rw [readDigits?_eq_some]
    constructor
    · rintro ⟨hne, hd, hv⟩
      exact ⟨text, .inl rfl, hne, hd, hv⟩
    · rintro ⟨es, rfl | h, hne, hd, hv⟩
      · exact ⟨hne, hd, hv⟩
      · exact absurd h (hn es)

end Chip8Frame.Text

namespace Chip8Frame.Boot

open Text (Blank Numeral)

def Speed (text : String) (speed : UInt32) : Prop :=
  Numeral text.toList speed.toNat ∧ 0 < speed.toNat

theorem readSpeed_cases (text : String) :
    (∃ speed, Speed text speed ∧ readSpeed text = .ok speed) ∨
      (∀ speed, ¬ Speed text speed) ∧ readSpeed text = .error (.invalidSpeed text) := by
  unfold readSpeed
  cases hn : Text.readNat? text.toList with
  | none =>
    refine .inr ⟨fun speed hs => ?_, rfl⟩
    rw [Text.readNat?_eq_some.mpr hs.1] at hn
    cases hn
  | some n =>
    by_cases h : 0 < n ∧ n < UInt32.size
    · have hv : (UInt32.ofNat n).toNat = n := UInt32.toNat_ofNat_of_lt' h.2
      refine .inl ⟨UInt32.ofNat n, ⟨?_, ?_⟩, if_pos h⟩
      · rw [hv]
        exact Text.readNat?_eq_some.mp hn
      · rw [hv]
        exact h.1
    · refine .inr ⟨fun speed hs => h ?_, if_neg h⟩
      rw [Text.readNat?_eq_some.mpr hs.1] at hn
      cases hn
      exact ⟨hs.2, speed.toNat_lt⟩

theorem filled?_eq_some {text : Option String} {t : String} :
    filled? text = some t ↔ ∃ s, text = some s ∧ Text.trim s = t ∧ t ≠ "" := by
  cases text <;> simp [filled?, Option.filter_eq_some_iff]

theorem filled?_some_cases (s : String) :
    Blank s ∧ filled? (some s) = none ∨ ¬ Blank s ∧ filled? (some s) = some (Text.trim s) := by
  by_cases h : Blank s
  · exact .inl ⟨h, by simp [filled?, Text.trim_eq_empty.mpr h]⟩
  · exact .inr ⟨h, filled?_eq_some.mpr ⟨s, rfl, rfl, mt Text.trim_eq_empty.mp h⟩⟩

theorem Speed.not_empty {text : String} {speed : UInt32} (h : Speed text speed) : text ≠ "" := by
  rintro rfl
  obtain ⟨⟨ds, hs | hs, hne, -⟩, -⟩ := h
  · exact hne hs.symm
  · cases hs

/-- All ways in which parameters can be resolved. -/
inductive Resolved (p : Parameters) (w : Binary64) (o : Options) :
    Except ConfigError Config → Prop where
  | noProgram (hp : filled? p.program = none) : Resolved p w o (.error .missingProgram)
  | noSpeed {program : String} (hp : filled? p.program = some program)
      (hs : filled? p.speed = none) :
      Resolved p w o (.error (.missingField Parameters.speedAttribute))
  | badSpeed {program text : String} (hp : filled? p.program = some program)
      (hs : filled? p.speed = some text) (hn : ∀ speed, ¬ Speed text speed) :
      Resolved p w o (.error (.invalidSpeed text))
  | noForeground {program text : String} {speed : UInt32} (hp : filled? p.program = some program)
      (hs : filled? p.speed = some text) (hn : Speed text speed)
      (hf : filled? p.foreground = none) :
      Resolved p w o (.error (.missingField Parameters.foregroundAttribute))
  | noBackground {program text foreground : String} {speed : UInt32}
      (hp : filled? p.program = some program) (hs : filled? p.speed = some text)
      (hn : Speed text speed) (hf : filled? p.foreground = some foreground)
      (hb : filled? p.background = none) :
      Resolved p w o (.error (.missingField Parameters.backgroundAttribute))
  | ready {program text foreground background : String} {speed : UInt32}
      (hp : filled? p.program = some program) (hs : filled? p.speed = some text)
      (hn : Speed text speed) (hf : filled? p.foreground = some foreground)
      (hb : filled? p.background = some background) :
      Resolved p w o (.ok {
        program
        path := o.programPath program
        speed
        pixelSize := pixelSize w o.variant
        foreground
        background
        variant := o.variant })

theorem Resolved.of_resolve (p : Parameters) (w : Binary64) (o : Options) :
    Resolved p w o (p.resolve w o) := by
  simp only [Parameters.resolve, required, bind, Except.bind, pure, Except.pure]
  cases hp : filled? p.program with
  | none => exact .noProgram hp
  | some program =>
    cases hs : filled? p.speed with
    | none => exact .noSpeed hp hs
    | some text =>
      rcases readSpeed_cases text with ⟨speed, hn, hr⟩ | ⟨hn, hr⟩
      · cases hf : filled? p.foreground with
        | none => simpa only [hr] using .noForeground hp hs hn hf
        | some foreground =>
          cases hb : filled? p.background with
          | none => simpa only [hr] using .noBackground hp hs hn hf hb
          | some background => simpa only [hr] using .ready hp hs hn hf hb
      · simpa only [hr] using .badSpeed hp hs hn

end Chip8Frame.Boot
