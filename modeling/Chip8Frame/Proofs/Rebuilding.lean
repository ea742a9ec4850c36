import Chip8Frame.Proofs.Resolving
import Chip8Frame.Proofs.Transports

/-! Parameters written anew from a configuration. They are trimmed and their speed is plain decimal
text, so they resolve to that configuration again, over either carrier. The width that is available
decides the pixel size and nothing else. -/

namespace Chip8Frame.Text

theorem Trimmed.again {s t : String} (h : Trimmed s t) : Trimmed t t where
  around := ⟨[], [], by simp, nofun, nofun⟩
  first := h.first
  last := h.last

theorem isBlank_of_isDigit {c : Char} (h : c.isDigit = true) : isBlank c = false := by
  have hc : 48 ≤ c.toNat ∧ c.toNat ≤ 57 := by
    simpa [Char.isDigit, UInt32.le_iff_toNat_le] using h
  simp only [isBlank, Bool.or_eq_false_iff, Bool.and_eq_false_iff, decide_eq_false_iff_not,
    beq_eq_false_iff_ne]
  omega

section Decimal

variable (n : Nat)

theorem isDigit_of_mem_decimal {c : Char} (h : c ∈ (toString n).toList) : c.isDigit = true :=
  Nat.isDigit_of_mem_toDigits (by decide) (by decide) (Nat.toList_repr ▸ h)

theorem decimal_numeral : Numeral (toString n).toList n := by
  have hlist : (toString n).toList = Nat.toDigits 10 n := Nat.toList_repr
  refine ⟨_, .inl rfl, ?_, fun d hd => isDigit_of_mem_decimal n hd, ?_⟩
  · rw [hlist]
    exact Nat.toDigits_ne_nil
  · rw [← digitsValue_eq, hlist]
    exact Nat.ofDigitChars_ten_toDigits

theorem decimal_trimmed : Trimmed (toString n) (toString n) where
  around := ⟨[], [], by simp, nofun, nofun⟩
  first c hc := isBlank_of_isDigit (isDigit_of_mem_decimal n (List.mem_of_mem_head? hc))
  last c hc := isBlank_of_isDigit (isDigit_of_mem_decimal n (List.mem_of_mem_getLast? hc))

end Decimal

end Chip8Frame.Text

namespace Chip8Frame.Boot

open Text (Trimmed)

/-- What arrives of parameters: data attributes are read back as they were written, and a message
is decoded as it was posted. -/
def Carrier.deliver : Carrier → Parameters → Except Decode.Error Parameters
  | attributes, p => .ok (.ofAttributes fun name => (p.toAttributes.lookup name).join)
  | message, p => Parameters.ofJson p.toJson

theorem Carrier.deliver_eq (k : Carrier) (p : Parameters) : k.deliver p = .ok p := by
  cases k with
  | attributes =>
    simp [deliver, Parameters.ofAttributes, Parameters.toAttributes, lookup_cons_ite,
      Parameters.programAttribute, Parameters.speedAttribute, Parameters.foregroundAttribute,
      Parameters.backgroundAttribute]
  | message => exact Parameters.ofJson_toJson p

def Config.parameters (c : Config) : Parameters :=
  { program := some c.program
    speed := some (toString c.speed.toNat)
    foreground := some c.foreground
    background := some c.background }

section Holds

variable {c : Config} {p : Parameters} {w w' : Binary64} {o : Options}

theorem Given.again {text : Option String} {t : String} (h : Given text t) : Given (some t) t := by
  obtain ⟨s, -, ht, hne⟩ := h
  exact ⟨t, rfl, ht.again, hne⟩

theorem Config.Holds.rebuilt (h : c.Holds p w o) : c.Holds c.parameters w o where
  program := h.program.again
  path := h.path
  speed := by
    obtain ⟨-, -, -, hpos⟩ := h.speed
    have hs : Speed (toString c.speed.toNat) c.speed := ⟨Text.decimal_numeral _, hpos⟩
    exact ⟨_, ⟨_, rfl, Text.decimal_trimmed _, hs.not_empty⟩, hs⟩
  foreground := h.foreground.again
  background := h.background.again
  variant := h.variant
  pixelSize := h.pixelSize

/-- At another width the same parameters describe the same program on a display of another size. -/
theorem Config.Holds.at_width (h : c.Holds p w o) (w' : Binary64) :
    { c with pixelSize := Boot.pixelSize w' o.variant }.Holds p w' o where
  program := h.program
  path := h.path
  speed := h.speed
  foreground := h.foreground
  background := h.background
  variant := h.variant
  pixelSize := rfl

end Holds

/-- What the parameters resolve to that are written anew from a configuration. -/
structure Rebuilds (p : Parameters) (w : Binary64) (o : Options) (c : Config) : Prop where
  same : ∀ k : Carrier, ∃ q, k.deliver c.parameters = .ok q ∧ q.resolve w o = .ok c
  elsewhere : ∀ w', ∃ c', c' = { c with pixelSize := pixelSize w' o.variant } ∧
    p.resolve w' o = .ok c' ∧
      ∀ k : Carrier, ∃ q, k.deliver c.parameters = .ok q ∧ q.resolve w' o = .ok c'

theorem rebuilds_of_resolve {p : Parameters} {w : Binary64} {o : Options} {c : Config}
    (h : p.resolve w o = .ok c) : Rebuilds p w o c := by
  have hc := holds_of_resolve h
  refine ⟨fun k => ⟨_, k.deliver_eq _, resolve_eq_ok_iff.mpr hc.rebuilt⟩, fun w' => ?_⟩
  exact ⟨_, rfl, resolve_eq_ok_iff.mpr (hc.at_width w'), fun k =>
    ⟨_, k.deliver_eq _, resolve_eq_ok_iff.mpr (hc.rebuilt.at_width w')⟩⟩

def Sample.untidy : Parameters :=
  { program := some "\u3000PONG\u00a0"
    speed := some " +0010\n"
    foreground := some "1\t"
    background := some "\u0085#000" }

def Sample.tidy : Config :=
  { program := "PONG"
    path := "roms/PONG"
    speed := 10
    pixelSize := 16
    foreground := "1"
    background := "#000"
    variant := .chip8 }

theorem Sample.untidy_resolved : Sample.untidy.resolve (.ofInt 1024) .default = .ok Sample.tidy :=
  rfl

theorem rebuilds_of_untidy :
    Sample.untidy.resolve (.ofInt 1024) .default = .ok Sample.tidy ∧
      Rebuilds Sample.untidy (.ofInt 1024) .default Sample.tidy :=
  ⟨Sample.untidy_resolved, rebuilds_of_resolve Sample.untidy_resolved⟩

end Chip8Frame.Boot
