import Mathlib.Tactic.SplitIfs
import Chip8Frame.Text.Basic

/-! Bytes read as characters whatever they are. Where the bytes of a character stand, they stand
for it; where none does, one replacement stands for the longest start of a character that is there.
Each sequence of bytes falls into such parts in one way, and the decoder finds them in one pass. -/

namespace Chip8Frame.Text

open String (utf8EncodeChar)

def Begins (bytes : List UInt8) : Prop := ∃ c, bytes <+: utf8EncodeChar c

/-- What one replacement stands for at the front of `bytes`, where no character stands: the longest
start of a character that is there, or one byte if it starts none. -/
structure Broken (bad bytes : List UInt8) : Prop where
  front : bad <+: bytes
  filled : bad ≠ []
  unwritten : ∀ c, ¬ utf8EncodeChar c <+: bytes
  start : Begins bad ∨ bad.length = 1
  longest : ∀ more, more <+: bytes → Begins more → more.length ≤ bad.length

/-- The characters that bytes stand for, some of them replacements of what stands for none. -/
inductive Lossy : List UInt8 → List Char → Prop where
  | nil : Lossy [] []
  | char {bytes : List UInt8} {cs : List Char} (c : Char) (h : Lossy bytes cs) :
      Lossy (utf8EncodeChar c ++ bytes) (c :: cs)
  | broken {bad bytes : List UInt8} {cs : List Char} (hb : Broken bad (bad ++ bytes))
      (h : Lossy bytes cs) : Lossy (bad ++ bytes) (replacement :: cs)

section Characters

variable {c c' : Char} {bad bad' bytes : List UInt8}

theorem utf8EncodeChar_ne_nil (c : Char) : utf8EncodeChar c ≠ [] := by
  have hlength := String.length_utf8EncodeChar c
  have hpos := c.utf8Size_pos
  intro hn
  rw [hn, List.length_nil] at hlength
  omega

theorem char_eq_of_prefix (h : utf8EncodeChar c <+: bytes) (h' : utf8EncodeChar c' <+: bytes) :
    c = c' := by
  obtain ⟨a, ha⟩ := h
  obtain ⟨a', ha'⟩ := h'
  have hc := ByteArray.utf8DecodeChar?_utf8EncodeChar_append (b := a.toByteArray) (c := c)
  have hc' := ByteArray.utf8DecodeChar?_utf8EncodeChar_append (b := a'.toByteArray) (c := c')
  rw [← List.toByteArray_append, ha] at hc
  rw [← List.toByteArray_append, ha', hc] at hc'
  exact Option.some.inj hc'

theorem Broken.length_le (h : Broken bad bytes) (h' : Broken bad' bytes) :
    bad'.length ≤ bad.length := by
  rcases h'.start with hs | hone
  · exact h.longest bad' h'.front hs
  · have hpos := List.length_pos_iff.mpr h.filled
    omega

theorem Broken.unique (h : Broken bad bytes) (h' : Broken bad' bytes) : bad = bad' :=
  (List.prefix_of_prefix_length_le h.front h'.front (h'.length_le h)).eq_of_length
    (Nat.le_antisymm (h'.length_le h) (h.length_le h'))

end Characters

theorem Lossy.unique {bytes : List UInt8} {cs cs' : List Char} (h : Lossy bytes cs)
    (h' : Lossy bytes cs') : cs = cs' := by
  induction h generalizing cs' with
  | nil =>
    generalize hbytes : ([] : List UInt8) = bytes at h'
    cases h' with
    | nil => rfl
    | char c h' => exact absurd (List.append_eq_nil_iff.mp hbytes.symm).1 (utf8EncodeChar_ne_nil c)
    | broken hb h' => exact absurd (List.append_eq_nil_iff.mp hbytes.symm).1 hb.filled
  | @char rest cs c h ih =>
    generalize hbytes : utf8EncodeChar c ++ rest = bytes at h'
    cases h' with
    | nil => exact absurd (List.append_eq_nil_iff.mp hbytes).1 (utf8EncodeChar_ne_nil c)
    | @char rest' cs' c' h' =>
      obtain rfl := char_eq_of_prefix ⟨rest, hbytes⟩ ⟨rest', rfl⟩
      obtain rfl := List.append_cancel_left hbytes
      rw [ih h']
    | broken hb h' => exact absurd ⟨rest, hbytes⟩ (hb.unwritten c)
  | @broken bad rest cs hb h ih =>
    generalize hbytes : bad ++ rest = bytes at h' hb
    cases h' with
    | nil => exact absurd (List.append_eq_nil_iff.mp hbytes).1 hb.filled
    | @char rest' cs' c' h' => exact absurd ⟨rest', rfl⟩ (hb.unwritten c')
    | @broken bad' rest' cs' hb' h' =>
      obtain rfl := hb.unique hb'
      obtain rfl := List.append_cancel_left hbytes
      rw [ih h']

/-- What is left of a code point in front of its last `k` bytes, which carry six bits each. -/
def leading : Nat → Nat → Nat
  | 0, n => n
  | k + 1, n => leading k n / 64

/-- The last `k` bytes of the character of a code point with more than `k`. -/
def tailBytes : Nat → Nat → List UInt8
  | 0, _ => []
  | k + 1, n => UInt8.ofNat (leading k n % 64 + 0x80) :: tailBytes k n

/-- The code points that a lead announces. -/
structure Lead.Fits (l : Lead) (n : Nat) : Prop where
  bits : leading l.tail n = l.bits
  least : l.least ≤ leading (l.tail - 1) n % 64 + 0x80
  greatest : leading (l.tail - 1) n % 64 + 0x80 ≤ l.greatest

/-- The table of first bytes. The bounds of the second byte keep overlong forms, surrogates and code
points past the last one out. -/
inductive Row (b : Nat) : Lead → Prop where
  | one (h : b < 0x80) : Row b ⟨b, 0, 0x80, 0xBF⟩
  | two (h : 0xC2 ≤ b ∧ b ≤ 0xDF) : Row b ⟨b - 0xC0, 1, 0x80, 0xBF⟩
  | leastThree (h : b = 0xE0) : Row b ⟨0, 2, 0xA0, 0xBF⟩
  | three (h : 0xE1 ≤ b ∧ b ≤ 0xEF) (hs : b ≠ 0xED) : Row b ⟨b - 0xE0, 2, 0x80, 0xBF⟩
  | surrogates (h : b = 0xED) : Row b ⟨0xD, 2, 0x80, 0x9F⟩
  | leastFour (h : b = 0xF0) : Row b ⟨0, 3, 0x90, 0xBF⟩
  | four (h : 0xF1 ≤ b ∧ b ≤ 0xF3) : Row b ⟨b - 0xF0, 3, 0x80, 0xBF⟩
  | greatest (h : b = 0xF4) : Row b ⟨4, 3, 0x80, 0x8F⟩

section Encodings

variable {n : Nat} {c : Char} {b : UInt8} {l : Lead} {t : List UInt8}

theorem toNat_ofNat_of_valid (h : n.isValidChar) : (Char.ofNat n).toNat = n := by
  unfold Char.ofNat
  rw [dif_pos h]
  rfl

theorem utf8EncodeChar_one (h : n ≤ 0x7F) :
    utf8EncodeChar (Char.ofNat n) = UInt8.ofNat n :: tailBytes 0 n := by
  have hv : (Char.ofNat n).val.toNat = n := toNat_ofNat_of_valid (.inl (by omega))
  rw [utf8EncodeChar, hv, if_pos h, tailBytes]

theorem utf8EncodeChar_two (h : 0x7F < n) (h' : n ≤ 0x7FF) :
    utf8EncodeChar (Char.ofNat n) = UInt8.ofNat (n / 64 + 0xC0) :: tailBytes 1 n := by
  have hv : (Char.ofNat n).val.toNat = n := toNat_ofNat_of_valid (.inl (by omega))
  have hfirst : n / 64 % 32 = n / 64 := by omega
  rw [utf8EncodeChar, hv, if_neg (by omega), if_pos h', hfirst]
  simp only [tailBytes, leading]

theorem utf8EncodeChar_three (h : 0x7FF < n) (h' : n ≤ 0xFFFF) (hv : n.isValidChar) :
    utf8EncodeChar (Char.ofNat n) = UInt8.ofNat (n / 4096 + 0xE0) :: tailBytes 2 n := by
  have hv : (Char.ofNat n).val.toNat = n := toNat_ofNat_of_valid hv
  have hfirst : n / 4096 % 16 = n / 4096 := by omega
  rw [utf8EncodeChar, hv, if_neg (by omega), if_neg (by omega), if_pos h', hfirst]
  simp only [tailBytes, leading]

theorem utf8EncodeChar_four (h : 0xFFFF < n) (h' : n < 0x110000) :
    utf8EncodeChar (Char.ofNat n) = UInt8.ofNat (n / 262144 + 0xF0) :: tailBytes 3 n := by
  have hv : (Char.ofNat n).val.toNat = n := toNat_ofNat_of_valid (.inr ⟨by omega, h'⟩)
  have hfirst : n / 262144 % 8 = n / 262144 := by omega
  have hsecond : n / 4096 = n / 64 / 64 := by omega
  rw [utf8EncodeChar, hv, if_neg (by omega), if_neg (by omega), if_neg (by omega), hfirst, hsecond]
  simp only [tailBytes, leading]

theorem byte_eq (h : n = b.toNat) : UInt8.ofNat n = b := by
  rw [h, UInt8.ofNat_toNat]

theorem toNat_byte (h : n < 256) : (UInt8.ofNat n).toNat = n := by
  rw [UInt8.toNat_ofNat', Nat.mod_eq_of_lt h]

theorem row_of_lead (hl : lead? n = some l) : Row n l := by
  unfold lead? at hl
  split_ifs at hl with h1 h2 h3 h4 h5 h6 h7 h8 <;> obtain rfl := Option.some.inj hl
  · exact .one h1
  · exact .two h2
  · exact .leastThree h3
  · exact .surrogates h4
  · exact .three h5 h4
  · exact .leastFour h6
  · exact .greatest h7
  · exact .four h8

theorem Row.lead (h : Row n l) : lead? n = some l := by
  unfold lead?
  cases h with
  | one h => rw [if_pos h]
  | two h => rw [if_neg (by omega), if_pos h]
  | leastThree h | surrogates h | leastFour h | greatest h =>
    subst h
    rfl
  | three h hs => rw [if_neg (by omega), if_neg (by omega), if_neg (by omega), if_neg hs, if_pos h]
  | four h =>
    rw [if_neg (by omega), if_neg (by omega), if_neg (by omega), if_neg (by omega),
      if_neg (by omega), if_neg (by omega), if_neg (by omega), if_pos h]

theorem written_of_fits (hl : lead? b.toNat = some l) (h : l.Fits n) :
    n.isValidChar ∧ utf8EncodeChar (Char.ofNat n) = b :: tailBytes l.tail n := by
  obtain ⟨hbits, hleast, hgreatest⟩ := h
  cases row_of_lead hl <;> simp only [leading, Nat.reduceSub] at hbits hleast hgreatest
  case one h =>
    refine ⟨.inl (by omega), ?_⟩
    rw [utf8EncodeChar_one (by omega), byte_eq hbits]
  case two h =>
    refine ⟨.inl (by omega), ?_⟩
    rw [utf8EncodeChar_two (by omega) (by omega), byte_eq (b := b) (by omega)]
  case leastThree h | three h hs | surrogates h =>
    have hv : n.isValidChar := by
      rw [Nat.isValidChar]
      omega
    rw [utf8EncodeChar_three (by omega) (by omega) hv, byte_eq (b := b) (by omega)]
    exact ⟨hv, rfl⟩
  case leastFour h | four h | greatest h =>
    refine ⟨.inr ⟨by omega, by omega⟩, ?_⟩
    rw [utf8EncodeChar_four (by omega) (by omega), byte_eq (b := b) (by omega)]

theorem fits_of_bits {k bits : Nat} (h : leading k n = bits) :
    Lead.Fits ⟨bits, k, 0x80, 0xBF⟩ n := by
  refine ⟨h, Nat.le_add_left _ _, ?_⟩
  show leading (k - 1) n % 64 + 0x80 ≤ 0xBF
  omega

theorem fits_three {bits least greatest : Nat} (hbits : n / 4096 = bits)
    (hleast : least ≤ n / 64 % 64 + 0x80) (hgreatest : n / 64 % 64 + 0x80 ≤ greatest) :
    Lead.Fits ⟨bits, 2, least, greatest⟩ n :=
  ⟨by simp only [leading]; omega, hleast, hgreatest⟩

theorem fits_four {bits least greatest : Nat} (hbits : n / 262144 = bits)
    (hleast : least ≤ n / 64 / 64 % 64 + 0x80) (hgreatest : n / 64 / 64 % 64 + 0x80 ≤ greatest) :
    Lead.Fits ⟨bits, 3, least, greatest⟩ n :=
  ⟨by simp only [leading]; omega, hleast, hgreatest⟩

theorem row_one (h : n ≤ 0x7F) : ∃ l, Row n l ∧ l.tail = 0 ∧ l.Fits n :=
  ⟨_, .one (by omega), rfl, fits_of_bits rfl⟩

theorem row_two (h : 0x7F < n) (h' : n ≤ 0x7FF) :
    ∃ l, Row (n / 64 + 0xC0) l ∧ l.tail = 1 ∧ l.Fits n :=
  ⟨_, .two (by omega), rfl, fits_of_bits (Nat.add_sub_cancel _ _).symm⟩

theorem row_three (h : 0x7FF < n) (h' : n ≤ 0xFFFF) (hv : n.isValidChar) :
    ∃ l, Row (n / 4096 + 0xE0) l ∧ l.tail = 2 ∧ l.Fits n := by
  rw [Nat.isValidChar] at hv
  by_cases hleast : n < 0x1000
  · exact ⟨_, .leastThree (by omega), rfl, fits_three (by omega) (by omega) (by omega)⟩
  by_cases hsurrogates : 0xD000 ≤ n ∧ n < 0xE000
  · exact ⟨_, .surrogates (by omega), rfl, fits_three (by omega) (by omega) (by omega)⟩
  · exact ⟨_, .three (by omega) (by omega), rfl, fits_three (by omega) (by omega) (by omega)⟩

theorem row_four (h : 0xFFFF < n) (h' : n < 0x110000) :
    ∃ l, Row (n / 262144 + 0xF0) l ∧ l.tail = 3 ∧ l.Fits n := by
  by_cases hleast : n < 0x40000
  · exact ⟨_, .leastFour (by omega), rfl, fits_four (by omega) (by omega) (by omega)⟩
  by_cases hgreatest : 0x100000 ≤ n
  · exact ⟨_, .greatest (by omega), rfl, fits_four (by omega) (by omega) (by omega)⟩
  · exact ⟨_, .four (by omega), rfl, fits_four (by omega) (by omega) (by omega)⟩

theorem utf8EncodeChar_lead (c : Char) : ∃ b l, lead? b.toNat = some l ∧ l.Fits c.toNat ∧
    utf8EncodeChar c = b :: tailBytes l.tail c.toNat := by
  have hvalid : c.toNat.isValidChar := c.valid
  rw [← Char.ofNat_toNat c, toNat_ofNat_of_valid hvalid]
  generalize c.toNat = n at hvalid
  have hlead : ∀ k b, b < 256 → utf8EncodeChar (Char.ofNat n) = UInt8.ofNat b :: tailBytes k n →
      (∃ l, Row b l ∧ l.tail = k ∧ l.Fits n) →
      ∃ b l, lead? b.toNat = some l ∧ l.Fits n ∧
        utf8EncodeChar (Char.ofNat n) = b :: tailBytes l.tail n := by
    rintro k b hb hbytes ⟨l, hrow, rfl, hfits⟩
    exact ⟨_, l, by rw [toNat_byte hb, hrow.lead], hfits, hbytes⟩
  have hlt : n < 0x110000 := hvalid.elim (fun h => by omega) fun h => h.2
  by_cases h1 : n ≤ 0x7F
  · exact hlead 0 n (by omega) (utf8EncodeChar_one h1) (row_one h1)
  by_cases h2 : n ≤ 0x7FF
  · exact hlead 1 _ (by omega) (utf8EncodeChar_two (by omega) h2) (row_two (by omega) h2)
  by_cases h3 : n ≤ 0xFFFF
  · exact hlead 2 _ (by omega) (utf8EncodeChar_three (by omega) h3 hvalid)
      (row_three (by omega) h3 hvalid)
  · exact hlead 3 _ (by omega) (utf8EncodeChar_four (by omega) hlt) (row_four (by omega) hlt)

theorem written_iff_of_lead (hl : lead? b.toNat = some l) :
    utf8EncodeChar c = b :: t ↔ l.Fits c.toNat ∧ t = tailBytes l.tail c.toNat := by
  constructor
  · intro h
    obtain ⟨b', l', hl', hfits, hbytes⟩ := utf8EncodeChar_lead c
    obtain ⟨rfl, rfl⟩ := List.cons.inj (h.symm.trans hbytes)
    obtain rfl := Option.some.inj (hl.symm.trans hl')
    exact ⟨hfits, rfl⟩
  · rintro ⟨hfits, rfl⟩
    have hbytes := (written_of_fits hl hfits).2
    rwa [Char.ofNat_toNat] at hbytes

theorem not_written_of_no_lead (hl : lead? b.toNat = none) : utf8EncodeChar c ≠ b :: t := by
  intro h
  obtain ⟨b', l, hl', -, hbytes⟩ := utf8EncodeChar_lead c
  obtain ⟨rfl, -⟩ := List.cons.inj (h.symm.trans hbytes)
  rw [hl] at hl'
  cases hl'

end Encodings

def Lead.Admits (l : Lead) (b : UInt8) : Prop := l.least ≤ b.toNat ∧ b.toNat ≤ l.greatest

def Lead.next (l : Lead) (b : UInt8) : Lead :=
  ⟨64 * l.bits + (b.toNat - 0x80), l.tail - 1, 0x80, 0xBF⟩

/-- The characters that start with `p` are those that `l` announces, and `p` is none of them. -/
structure Begun (p : List UInt8) (l : Lead) : Prop where
  filled : p ≠ []
  owing : 0 < l.tail
  least : 0x80 ≤ l.least
  within : l.least ≤ l.greatest
  greatest : l.greatest ≤ 0xBF
  valid : ∀ n, l.Fits n → n.isValidChar
  written : ∀ c t, utf8EncodeChar c = p ++ t ↔ l.Fits c.toNat ∧ t = tailBytes l.tail c.toNat

section Progress

variable {l : Lead} {b : UInt8} {p bytes rest : List UInt8} {c : Char} {n : Nat}

theorem lead?_range (hl : lead? n = some l) :
    0x80 ≤ l.least ∧ l.least ≤ l.greatest ∧ l.greatest ≤ 0xBF := by
  cases row_of_lead hl <;> simp

theorem begun_of_lead (hl : lead? b.toNat = some l) (ht : l.tail ≠ 0) : Begun [b] l where
  filled := List.cons_ne_nil _ _
  owing := Nat.pos_of_ne_zero ht
  least := (lead?_range hl).1
  within := (lead?_range hl).2.1
  greatest := (lead?_range hl).2.2
  valid _ h := (written_of_fits hl h).1
  written _ _ := written_iff_of_lead hl

theorem written_of_alone (hl : lead? b.toNat = some l) (ht : l.tail = 0) :
    utf8EncodeChar (Char.ofNat l.bits) = [b] := by
  cases row_of_lead hl
  case one h =>
    have hone := utf8EncodeChar_one (Nat.le_of_lt_succ h)
    rwa [UInt8.ofNat_toNat] at hone
  all_goals cases ht

theorem tailBytes_cons {k : Nat} {t : List UInt8} :
    b :: t = tailBytes (k + 1) n ↔ b.toNat = leading k n % 64 + 0x80 ∧ t = tailBytes k n := by
  have hbyte : (UInt8.ofNat (leading k n % 64 + 0x80)).toNat = leading k n % 64 + 0x80 :=
    toNat_byte (by omega)
  rw [tailBytes, List.cons.injEq, ← UInt8.toNat_inj, hbyte]

theorem exists_leading (k m : Nat) : ∃ n, leading k n = m := by
  induction k generalizing m with
  | zero => exact ⟨m, rfl⟩
  | succ k ih =>
    obtain ⟨n, hn⟩ := ih (m * 64)
    exact ⟨n, by rw [leading, hn, Nat.mul_div_cancel m (by decide)]⟩

theorem Begun.next_fits_iff (h : Begun p l) (hb : l.Admits b) {k : Nat} (ht : l.tail = k + 2) :
    (l.next b).Fits n ↔ l.Fits n ∧ b.toNat = leading (k + 1) n % 64 + 0x80 := by
  obtain ⟨hlow, hhigh⟩ := hb
  have hleast := h.least
  have hgreatest := h.greatest
  have hdiv : leading (k + 2) n = leading (k + 1) n / 64 := rfl
  have hnext : (l.next b).tail = k + 1 := congrArg (· - 1) ht
  have hbefore : l.tail - 1 = k + 1 := hnext
  have hbits : (l.next b).bits = 64 * l.bits + (b.toNat - 0x80) := rfl
  refine ⟨fun hf => ?_, fun ⟨hf, hbyte⟩ => ?_⟩
  · have hvalue := hf.bits
    rw [hnext, hbits] at hvalue
    refine ⟨⟨?_, ?_, ?_⟩, ?_⟩
    · rw [ht, hdiv]
      omega
    · rw [hbefore]
      omega
    · rw [hbefore]
      omega
    · omega
  · have hvalue := hf.bits
    rw [ht, hdiv] at hvalue
    refine fits_of_bits ?_
    show leading (l.next b).tail n = (l.next b).bits
    rw [hnext, hbits]
    omega

theorem Begun.admits (h : Begun p l) (hc : utf8EncodeChar c = p ++ b :: rest) : l.Admits b := by
  obtain ⟨hfits, ht⟩ := (h.written c _).mp hc
  obtain ⟨k, hk⟩ := Nat.exists_eq_succ_of_ne_zero (Nat.ne_of_gt h.owing)
  rw [hk, Nat.succ_eq_add_one, tailBytes_cons] at ht
  have hleast := hfits.least
  have hgreatest := hfits.greatest
  rw [hk] at hleast hgreatest
  rw [Lead.Admits, ht.1]
  exact ⟨hleast, hgreatest⟩

theorem Begun.next (h : Begun p l) (hb : l.Admits b) (ht : l.tail ≠ 1) :
    Begun (p ++ [b]) (l.next b) := by
  have howing := h.owing
  obtain ⟨k, hk⟩ : ∃ k, l.tail = k + 2 := ⟨l.tail - 2, by omega⟩
  have hnext : (l.next b).tail = k + 1 := congrArg (· - 1) hk
  refine ⟨by simp, by omega, Nat.le_refl _, show 0x80 ≤ 0xBF by decide, Nat.le_refl _,
    fun n hn => ?_, fun c t => ?_⟩
  · exact h.valid n ((h.next_fits_iff hb hk).mp hn).1
  · rw [List.append_assoc, List.singleton_append, h.written, hk, tailBytes_cons, hnext,
      h.next_fits_iff hb hk, and_assoc]

theorem Begun.written_of_fits (h : Begun p l) (hn : l.Fits n) :
    utf8EncodeChar (Char.ofNat n) = p ++ tailBytes l.tail n := by
  have hvalue := toNat_ofNat_of_valid (h.valid n hn)
  exact (h.written _ _).mpr ⟨by rwa [hvalue], by rw [hvalue]⟩

theorem Begun.last (h : Begun p l) (hb : l.Admits b) (ht : l.tail = 1) :
    utf8EncodeChar (Char.ofNat (l.next b).bits) = p ++ [b] := by
  obtain ⟨hlow, hhigh⟩ := hb
  have hleast := h.least
  have hgreatest := h.greatest
  have hbits : (l.next b).bits = 64 * l.bits + (b.toNat - 0x80) := rfl
  generalize (l.next b).bits = n at hbits
  have hfits : l.Fits n := by
    refine ⟨?_, ?_, ?_⟩ <;> rw [ht] <;> simp only [leading, Nat.reduceSub] <;> omega
  have hlast : [b] = tailBytes (0 + 1) n := tailBytes_cons.mpr ⟨by rw [leading]; omega, rfl⟩
  rw [h.written_of_fits hfits, ht, hlast]

theorem Begun.begins (h : Begun p l) : ∃ c b t, utf8EncodeChar c = p ++ b :: t := by
  have howing := h.owing
  have hleast := h.least
  have hwithin := h.within
  have hgreatest := h.greatest
  obtain ⟨k, hk⟩ : ∃ k, l.tail = k + 1 := ⟨l.tail - 1, by omega⟩
  obtain ⟨n, hn⟩ := exists_leading k (64 * l.bits + (l.least - 0x80))
  have hfits : l.Fits n := by
    refine ⟨?_, ?_, ?_⟩ <;> rw [hk]
    · rw [leading, hn]
      omega
    · rw [Nat.add_sub_cancel, hn]
      omega
    · rw [Nat.add_sub_cancel, hn]
      omega
  have hbytes := h.written_of_fits hfits
  rw [hk, tailBytes] at hbytes
  exact ⟨_, _, _, hbytes⟩

end Progress

section Decoding

variable {l : Lead} {b : UInt8} {p bytes : List UInt8}

/-- No character starts with more of the bytes than what is begun. -/
theorem Begun.stuck (h : Begun p l) (hend : ∀ b ∈ bytes.head?, ¬ l.Admits b)
    {more : List UInt8} (hmore : more <+: p ++ bytes) (hbegins : Begins more) : more <+: p := by
  rcases List.prefix_or_prefix_of_prefix hmore (List.prefix_append p bytes) with hp | ⟨t, rfl⟩
  · exact hp
  · cases t with
    | nil => simp
    | cons b t =>
      obtain ⟨c, rest, hc⟩ := hbegins
      obtain ⟨after, rfl⟩ := (List.prefix_append_right_inj p).mp hmore
      rw [List.append_assoc, List.cons_append] at hc
      exact absurd (h.admits hc.symm) (hend b rfl)

theorem Begun.broken (h : Begun p l) (hend : ∀ b ∈ bytes.head?, ¬ l.Admits b) :
    Broken p (p ++ bytes) := by
  obtain ⟨c', b, t, hc'⟩ := h.begins
  have hbegins : p <+: utf8EncodeChar c' := ⟨_, hc'.symm⟩
  refine ⟨List.prefix_append p bytes, h.filled, fun c hc => ?_, .inl ⟨c', hbegins⟩, fun more hm hb =>
    (h.stuck hend hm hb).length_le⟩
  -- a character there would be one that starts with it and goes on
  have hshort := h.stuck hend hc ⟨c, List.prefix_rfl⟩
  obtain rfl := char_eq_of_prefix (hshort.trans hbegins) List.prefix_rfl
  have hlength := hshort.length_le
  rw [hc', List.length_append, List.length_cons] at hlength
  omega

theorem broken_of_no_lead (hl : lead? b.toNat = none) : Broken [b] (b :: bytes) := by
  have hstuck : ∀ more, more <+: b :: bytes → Begins more → more = [] := by
    intro more hm ⟨c, rest, hc⟩
    cases more with
    | nil => rfl
    | cons b' t =>
      obtain rfl := (List.cons_prefix_cons.mp hm).1
      exact absurd hc.symm (not_written_of_no_lead hl)
  refine ⟨⟨bytes, rfl⟩, List.cons_ne_nil b [], fun c hc => ?_, .inr rfl, fun more hm hb => ?_⟩
  · exact utf8EncodeChar_ne_nil c (hstuck _ hc ⟨c, List.prefix_rfl⟩)
  · rw [hstuck more hm hb]
    exact Nat.zero_le _

theorem decodeFrom_of_no_lead (hl : lead? b.toNat = none) :
    decodeFrom none (b :: bytes) = replacement :: decodeFrom none bytes := by
  simp [decodeFrom, step, hl]

theorem decodeFrom_of_alone (hl : lead? b.toNat = some l) (ht : l.tail = 0) :
    decodeFrom none (b :: bytes) = Char.ofNat l.bits :: decodeFrom none bytes := by
  simp [decodeFrom, step, hl, ht]

theorem decodeFrom_of_lead (hl : lead? b.toNat = some l) (ht : l.tail ≠ 0) :
    decodeFrom none (b :: bytes) = decodeFrom (some l) bytes := by
  simp [decodeFrom, step, hl, ht]

theorem step_last (hb : l.Admits b) (ht : l.tail = 1) :
    step (some l) b = ([Char.ofNat (l.next b).bits], none) :=
  (if_pos hb).trans (if_pos ht)

theorem step_next (hb : l.Admits b) (ht : l.tail ≠ 1) : step (some l) b = ([], some (l.next b)) :=
  (if_pos hb).trans (if_neg ht)

theorem decodeFrom_last (hb : l.Admits b) (ht : l.tail = 1) :
    decodeFrom (some l) (b :: bytes) =
      Char.ofNat (l.next b).bits :: decodeFrom none bytes := by
  rw [decodeFrom, step_last hb ht]
  rfl

theorem decodeFrom_next (hb : l.Admits b) (ht : l.tail ≠ 1) :
    decodeFrom (some l) (b :: bytes) = decodeFrom (some (l.next b)) bytes := by
  rw [decodeFrom, step_next hb ht]
  rfl

theorem decodeFrom_afresh (hb : ¬ l.Admits b) :
    decodeFrom (some l) (b :: bytes) = replacement :: decodeFrom none (b :: bytes) := by
  rw [Lead.Admits] at hb
  simp [decodeFrom, step, hb]

/-- Bytes stand for what is decoded of them, and so do bytes behind what is begun. -/
theorem lossy_decodeFrom (bytes : List UInt8) : Lossy bytes (decodeFrom none bytes) ∧
    ∀ p l, Begun p l → Lossy (p ++ bytes) (decodeFrom (some l) bytes) := by
  induction bytes with
  | nil =>
    refine ⟨.nil, fun p l h => ?_⟩
    exact .broken (h.broken nofun) .nil
  | cons b bytes ih =>
    have hfresh : Lossy (b :: bytes) (decodeFrom none (b :: bytes)) := by
      cases hl : lead? b.toNat with
      | none =>
        rw [decodeFrom_of_no_lead hl]
        exact .broken (broken_of_no_lead hl) ih.1
      | some l =>
        by_cases ht : l.tail = 0
        · have hchar := Lossy.char (Char.ofNat l.bits) ih.1
          rwa [written_of_alone hl ht, ← decodeFrom_of_alone hl ht] at hchar
        · rw [decodeFrom_of_lead hl ht]
          exact ih.2 [b] l (begun_of_lead hl ht)
    refine ⟨hfresh, fun p l h => ?_⟩
    by_cases hb : l.Admits b
    · by_cases ht : l.tail = 1
      · have hchar := Lossy.char (Char.ofNat (l.next b).bits) ih.1
        rwa [h.last hb ht, List.append_assoc, List.singleton_append,
          ← decodeFrom_last hb ht] at hchar
      · have hrest := ih.2 (p ++ [b]) (l.next b) (h.next hb ht)
        rwa [List.append_assoc, List.singleton_append, ← decodeFrom_next hb ht] at hrest
    · rw [decodeFrom_afresh hb]
      refine .broken (h.broken fun b' hb' => ?_) hfresh
      obtain rfl := Option.some.inj hb'
      exact hb

theorem decodeLossy_eq_iff {s : String} : decodeLossy bytes = s ↔ Lossy bytes s.toList := by
  have hlossy := (lossy_decodeFrom bytes).1
  constructor
  · rintro rfl
    rwa [decodeLossy, String.toList_ofList]
  · intro h
    rw [decodeLossy, hlossy.unique h, String.ofList_toList]

end Decoding

theorem encode_eq (s : String) : encode s = s.toList.flatMap utf8EncodeChar := by
  rw [encode, String.toUTF8_eq_toByteArray, ← String.utf8Encode_toList, List.utf8Encode,
    List.toList_data_toByteArray]

theorem lossy_encode (s : String) : Lossy (encode s) s.toList := by
  rw [encode_eq]
  induction s.toList with
  | nil => exact .nil
  | cons c cs ih => exact .char c ih

theorem decodeLossy_encode (s : String) : decodeLossy (encode s) = s :=
  decodeLossy_eq_iff.mpr (lossy_encode s)

end Chip8Frame.Text
