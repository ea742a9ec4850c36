import Chip8Frame.Proofs.SignedDecimal

/-! What a banner tells of its fault. The code is digits up to a line break, so it is read back
whatever the reason says, and a failed download names the program in the last words of the reason.
No other fault has anything of the program in it. -/

namespace Chip8Frame

open Text (isNumeralChar)

theorem FaultCode.ofExit?_value (c : FaultCode) : ofExit? c.value = some c :=
  dif_neg c.property

namespace Fault

def bannerOpening : String := "+++ Guru Meditation!\n+++ CODE: "

def reasonOpening : String := "\n+++ REASON: "

def downloadOpening : String := "Failed to download program: "

/-- The code and the reason that a banner shows. -/
def readBanner? (banner : String) : Option (FaultCode × String) := do
  let shown := banner.toList.drop bannerOpening.length
  let code ← Text.readInt32? (String.ofList (shown.takeWhile isNumeralChar))
  let fault ← FaultCode.ofExit? code
  let reason := (shown.dropWhile isNumeralChar).drop reasonOpening.length
  return (fault, String.ofList reason)

def readProgram? (banner : String) : Option String :=
  match readBanner? banner with
  | some (c, reason) =>
      if Exit.isNetwork c.value then
        some (String.ofList (reason.toList.drop downloadOpening.length))
      else none
  | none => none

section Banners

variable {f g : Fault}

theorem drop_opening (opening : String) (rest : List Char) :
    (opening.toList ++ rest).drop opening.length = rest := by
  rw [← String.length_toList]
  exact List.drop_left

theorem toList_banner (f : Fault) : f.banner.toList =
    bannerOpening.toList ++ (f.code.text.toList ++ (reasonOpening.toList ++ f.message.toList)) := by
  have hbanner : f.banner = bannerOpening ++ f.code.text ++ reasonOpening ++ f.message := rfl
  simp only [hbanner, String.toList_append, List.append_assoc]

/-- The code ends at the first character that no number has, whatever comes after it. -/
theorem code_cut (c : FaultCode) {rest : List Char}
    (h : ∀ d ∈ rest.head?, isNumeralChar d = false) :
    (c.text.toList ++ rest).takeWhile isNumeralChar = c.text.toList ∧
      (c.text.toList ++ rest).dropWhile isNumeralChar = rest := by
  have hcode : ∀ d ∈ c.text.toList, isNumeralChar d = true :=
    fun d hd => Text.isNumeralChar_of_mem_toString _ hd
  rw [List.takeWhile_append_of_pos hcode, List.dropWhile_append_of_pos hcode]
  cases rest with
  | nil => exact ⟨List.append_nil _, rfl⟩
  | cons d rest =>
    have hd : ¬ isNumeralChar d = true := by simp [h d rfl]
    rw [List.takeWhile_cons_of_neg hd, List.dropWhile_cons_of_neg hd, List.append_nil]
    exact ⟨rfl, rfl⟩

theorem readBanner?_banner (f : Fault) : readBanner? f.banner = some (f.code, f.message) := by
  have hhead : (reasonOpening.toList ++ f.message.toList).head? = some '\n' := by
    rw [List.head?_append]
    rfl
  have hbreak : ∀ d ∈ (reasonOpening.toList ++ f.message.toList).head?,
      isNumeralChar d = false := by
    rintro d hd
    obtain rfl := Option.some.inj (hhead.symm.trans hd)
    decide
  obtain ⟨htake, hdrop⟩ := code_cut f.code hbreak
  have hcode : Text.readInt32? f.code.text = some f.code.value := Text.readInt32?_toString _
  simp only [readBanner?, toList_banner, drop_opening, htake, hdrop, String.ofList_toList, hcode,
    Option.bind_eq_bind, Option.bind_some, FaultCode.ofExit?_value]
  rfl

theorem banner_inj : f.banner = g.banner ↔ f.code = g.code ∧ f.message = g.message := by
  constructor
  · intro h
    have hread : some (f.code, f.message) = some (g.code, g.message) := by
      rw [← readBanner?_banner, h, readBanner?_banner]
    exact Prod.mk.inj (Option.some.inj hread)
  · rintro ⟨hc, hm⟩
    unfold banner
    rw [hc, hm]

end Banners

inductive Categorised (code : Int) : Category → Prop where
  | network (h : 100 < code) : Categorised code .network
  | memoryBounds (h : code = 51) : Categorised code .memoryBounds
  | invalidOpcode (h : code = 52) : Categorised code .invalidOpcode
  | outOfMemory (h : code = 53) : Categorised code .outOfMemory
  | general (h : code ≤ 100) (hm : code ≠ 51) (ho : code ≠ 52) (hn : code ≠ 53) :
      Categorised code .general

theorem isNetwork_iff (code : Int32) : Exit.isNetwork code = true ↔ 100 < code.toInt := by
  rw [Exit.isNetwork, decide_eq_true_iff, Int32.lt_iff_toInt_lt]
  rfl

theorem categorised (code : Int32) : Categorised code.toInt (categoryOf code) := by
  have hbounds : code = Exit.memoryBounds ↔ code.toInt = 51 := Int32.toInt_inj.symm
  have hopcode : code = Exit.invalidOpcode ↔ code.toInt = 52 := Int32.toInt_inj.symm
  have hmemory : code = Exit.outOfMemory ↔ code.toInt = 53 := Int32.toInt_inj.symm
  simp only [categoryOf, isNetwork_iff, hbounds, hopcode, hmemory]
  split_ifs with hn hb ho hm
  · exact .network hn
  · exact .memoryBounds hb
  · exact .invalidOpcode ho
  · exact .outOfMemory hm
  · exact .general (not_lt.mp hn) hb ho hm

/-- The codes of a guest's own failures stand for no cause that the host knows. -/
theorem categoryOf_own_code {code : Int32} (h : code = Exit.general ∨ code = Exit.systemOther) :
    categoryOf code = .general := by
  rcases h with rfl | rfl <;> rfl

theorem Categorised.unique {code : Int} {k k' : Category} (h : Categorised code k)
    (h' : Categorised code k') : k = k' := by
  cases h <;> cases h' <;> first | rfl | omega

theorem Categorised.transport_iff {code : Int} {k : Category} (h : Categorised code k) :
    k.origin = .transport ↔ 100 < code := by
  cases h with
  | network h => exact iff_of_true rfl h
  | _ => exact iff_of_false nofun (by omega)

theorem Categorised.runtime_iff {code : Int} {k : Category} (h : Categorised code k) :
    k.origin = .runtime ↔ 51 ≤ code ∧ code ≤ 53 := by
  cases h with
  | network | general => exact iff_of_false nofun (by omega)
  | _ => exact iff_of_true rfl (by omega)

section Programs

variable {c c' : FaultCode} {n n' : String}

theorem message_of_network (h : 100 < c.value.toInt) :
    (of c n).message = downloadOpening ++ n := by
  have hk : categoryOf c.value = .network := (categorised c.value).unique (.network h)
  show reason n (categoryOf c.value) = _
  rw [hk]
  rfl

theorem of_unnamed (h : c.value.toInt ≤ 100) (n n' : String) : of c n = of c n' := by
  have hreason : reason n (categoryOf c.value) = reason n' (categoryOf c.value) := by
    have hk := categorised c.value
    cases hc : categoryOf c.value with
    | network =>
      rw [hc] at hk
      cases hk
      omega
    | _ => rfl
  simp only [of, hreason]

theorem readProgram?_banner :
    readProgram? (of c n).banner = if 100 < c.value.toInt then some n else none := by
  have hcode : (of c n).code = c := rfl
  unfold readProgram?
  rw [readBanner?_banner]
  simp only [hcode, isNetwork_iff]
  split
  · next h =>
    rw [message_of_network h, String.toList_append, drop_opening, String.ofList_toList]
  · rfl

theorem message_eq_iff : (of c n).message = (of c n').message ↔ c.value.toInt ≤ 100 ∨ n = n' := by
  constructor
  · intro h
    by_cases hn : 100 < c.value.toInt
    · rw [message_of_network hn, message_of_network hn, String.append_right_inj] at h
      exact .inr h
    · exact .inl (not_lt.mp hn)
  · rintro (h | rfl)
    · rw [of_unnamed h n n']
    · rfl

theorem of_eq_iff : of c n = of c n' ↔ c.value.toInt ≤ 100 ∨ n = n' := by
  refine ⟨fun h => message_eq_iff.mp (congrArg message h), ?_⟩
  rintro (h | rfl)
  · exact of_unnamed h n n'
  · rfl

theorem banner_of_eq_iff :
    (of c n).banner = (of c' n').banner ↔ c = c' ∧ (c.value.toInt ≤ 100 ∨ n = n') := by
  have hcode : (of c n).code = c ∧ (of c' n').code = c' := ⟨rfl, rfl⟩
  rw [banner_inj, hcode.1, hcode.2]
  refine and_congr_right ?_
  rintro rfl
  exact message_eq_iff

theorem text_of_eq_iff : (of c n).text = (of c n').text ↔ c.value.toInt ≤ 100 ∨ n = n' := by
  have hcode : (of c n).code = (of c n').code := rfl
  unfold text
  rw [hcode, String.append_right_inj]
  exact message_eq_iff

end Programs

/-- What the diagnostic of a code and a program tells of them. -/
structure Diagnosis (c : FaultCode) (n : String) : Prop where
  same : ∀ c' n', (of c n).banner = (of c' n').banner ↔ c = c' ∧ (c.value.toInt ≤ 100 ∨ n = n')
  /-- The code can be read back, and the program if its download failed. -/
  code : (readBanner? (of c n).banner).map Prod.fst = some c
  program : readProgram? (of c n).banner = if 100 < c.value.toInt then some n else none
  /-- Any other fault is one record for all programs, with one banner and one line of text. -/
  unnamed : ∀ n', of c n = of c n' ↔ c.value.toInt ≤ 100 ∨ n = n'
  text : ∀ n', (of c n).text = (of c n').text ↔ c.value.toInt ≤ 100 ∨ n = n'
  category : ∀ k, (of c n).category = k ↔ Categorised c.value.toInt k
  transport : (of c n).origin = .transport ↔ 100 < c.value.toInt
  runtime : (of c n).origin = .runtime ↔ 51 ≤ c.value.toInt ∧ c.value.toInt ≤ 53

theorem diagnosis (c : FaultCode) (n : String) : Diagnosis c n where
  same _ _ := banner_of_eq_iff
  code := by
    rw [readBanner?_banner]
    rfl
  program := readProgram?_banner
  unnamed _ := of_eq_iff
  text _ := text_of_eq_iff
  category k := ⟨fun h => h ▸ categorised c.value, fun h => (categorised c.value).unique h⟩
  transport := (categorised c.value).transport_iff
  runtime := (categorised c.value).runtime_iff

/-- A program that is named like the end of a banner does not pass for one. -/
example : readProgram? (of ⟨404, by decide⟩ "\n+++ REASON: none").banner =
    some "\n+++ REASON: none" := by
  decide +kernel

end Fault

end Chip8Frame
