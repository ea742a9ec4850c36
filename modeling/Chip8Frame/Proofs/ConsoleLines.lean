import Mathlib.Data.List.Forall2
import Chip8Frame.Console.Writer
import Chip8Frame.Proofs.LossyText
import Chip8Frame.Proofs.Resolving

/-! What a console receives of a writer that is used and then dropped. The uses fall into stretches
between flushes, and each stretch that holds a byte is one line. How its bytes were spread over
writes does not matter, for nothing is decoded before the flush. -/

namespace Chip8Frame.Text

structure TrimmedEnd (s t : String) : Prop where
  behind : ∃ b, s.toList = t.toList ++ b ∧ ∀ c ∈ b, isBlank c = true
  last : ∀ c ∈ t.toList.getLast?, isBlank c = false

theorem trimEnd_eq_iff {s t : String} : trimEnd s = t ↔ TrimmedEnd s t := by
  constructor
  · rintro rfl
    have hkept : stripEnd s.toList ++ s.toList.rtakeWhile isBlank = s.toList :=
      List.rdropWhile_append_rtakeWhile
    refine ⟨⟨s.toList.rtakeWhile isBlank, ?_, fun _ hc => List.mem_rtakeWhile_imp hc⟩,
      fun c hc => ?_⟩
    · rw [trimEnd, String.toList_ofList, hkept]
    · rw [trimEnd, String.toList_ofList] at hc
      exact getLast?_stripEnd hc
  · rintro ⟨⟨b, hs, hb⟩, hlast⟩
    rw [trimEnd, hs, stripEnd_blank hb, stripEnd_eq_self hlast, String.ofList_toList]

end Chip8Frame.Text

namespace Chip8Frame.Console

inductive Use where
  | write (bytes : List UInt8)
  | flush
  deriving DecidableEq, Repr

def Use.bytes : Use → List UInt8
  | write bytes => bytes
  | flush => []

def Use.isFlush : Use → Bool
  | write _ => false
  | flush => true

/-- The bytes of each stretch of writes between two flushes, at the start or at the end. -/
def stretches (uses : List Use) : List (List UInt8) :=
  (uses.splitOnP Use.isFlush).map (·.flatMap Use.bytes)

/-- Those that hold a byte. -/
def groups (uses : List Use) : List (List UInt8) :=
  (stretches uses).filter (!·.isEmpty)

def pending (uses : List Use) : List UInt8 :=
  (uses.rtakeWhile (!·.isFlush)).flatMap Use.bytes

section Stretches

variable {us vs : List Use} {b : List UInt8}

theorem stretches_ne_nil (us : List Use) : stretches us ≠ [] := by
  rw [stretches, Ne, List.map_eq_nil_iff]
  exact List.splitOnP_ne_nil _ _

theorem stretches_flush : stretches (.flush :: us) = [] :: stretches us := by
  rw [stretches, List.splitOnP_cons_eq_if_modifyHead]
  rfl

theorem stretches_write : stretches (.write b :: us) = (stretches us).modifyHead (b ++ ·) := by
  rw [stretches, stretches, List.splitOnP_cons_eq_if_modifyHead, if_neg (by simp [Use.isFlush])]
  cases us.splitOnP Use.isFlush <;> rfl

theorem stretches_writes (pieces : List (List UInt8)) :
    stretches (pieces.map .write ++ us) = (stretches us).modifyHead (pieces.flatten ++ ·) := by
  induction pieces with
  | nil =>
    rw [List.map_nil, List.nil_append]
    cases stretches us <;> rfl
  | cons b pieces ih =>
    rw [List.map_cons, List.cons_append, stretches_write, ih, List.modifyHead_modifyHead]
    congr 1
    funext bytes
    exact (List.append_assoc ..).symm

theorem stretches_congr (h : stretches us = stretches vs) (before : List Use) :
    stretches (before ++ us) = stretches (before ++ vs) := by
  induction before with
  | nil => exact h
  | cons u before ih =>
    cases u with
    | write b => rw [List.cons_append, List.cons_append, stretches_write, stretches_write, ih]
    | flush => rw [List.cons_append, List.cons_append, stretches_flush, stretches_flush, ih]

theorem flatten_stretches (us : List Use) : (stretches us).flatten = us.flatMap Use.bytes := by
  induction us with
  | nil => rfl
  | cons u us ih =>
    rw [List.flatMap_cons, ← ih]
    cases u with
    | write b =>
      rw [stretches_write]
      obtain ⟨first, rest, hfirst⟩ := List.exists_cons_of_ne_nil (stretches_ne_nil us)
      rw [hfirst, List.modifyHead_cons, List.flatten_cons, List.flatten_cons, List.append_assoc]
      rfl
    | flush =>
      rw [stretches_flush]
      rfl

theorem flatten_groups (us : List Use) : (groups us).flatten = us.flatMap Use.bytes := by
  rw [groups, List.flatten_filter_not_isEmpty, flatten_stretches]

end Stretches

def filled (bytes : List UInt8) : List (List UInt8) := [bytes].filter (!·.isEmpty)

section Groups

variable {us : List Use} {a b : List UInt8}

theorem groups_write : groups [.write b] = filled b := by
  rw [groups, stretches_write]
  simp [stretches, filled]

theorem groups_write_nil : groups (.write [] :: us) = groups us := by
  rw [groups, groups, stretches_write]
  cases stretches us <;> rfl

theorem groups_write_write : groups (.write a :: .write b :: us) = groups (.write (a ++ b) :: us) := by
  simp only [groups, stretches_write, List.modifyHead_modifyHead, Function.comp_def,
    List.append_assoc]

theorem groups_write_flush : groups (.write b :: .flush :: us) = filled b ++ groups us := by
  rw [groups, groups, stretches_write, stretches_flush, List.modifyHead_cons, List.append_nil,
    ← List.singleton_append, List.filter_append]
  rfl

end Groups

section Pending

variable {us : List Use} {b : List UInt8}

theorem pending_write : pending (us ++ [.write b]) = pending us ++ b := by
  rw [pending, List.rtakeWhile_concat_pos _ _ _ rfl, List.flatMap_append]
  simp [pending, Use.bytes]

theorem pending_flush : pending (us ++ [.flush]) = [] := by
  rw [pending, List.rtakeWhile_concat_neg _ _ _ Bool.false_ne_true]
  rfl

end Pending

/-- The line that some bytes are shown as: on the method named like the level, debug for the lowest
one, and with the text that they stand for but for the blank characters behind it. -/
structure Prints (level : Log.Level) (bytes : List UInt8) (line : Line) : Prop where
  method : line.method.name = if level = .trace then "debug" else Text.lower level.name
  text : ∃ s, Text.Lossy bytes s.toList ∧ Text.TrimmedEnd s line.text

def lineOf (level : Log.Level) (bytes : List UInt8) : Line :=
  ⟨Method.ofLevel level, Text.trimEnd (Text.decodeLossy bytes)⟩

theorem Method.name_ofLevel (level : Log.Level) : (Method.ofLevel level).name =
    if level = .trace then "debug" else Text.lower level.name := by
  cases level <;> decide

theorem Method.name_inj {m m' : Method} : m.name = m'.name ↔ m = m' := by
  cases m <;> cases m' <;> decide

theorem prints_iff {level : Log.Level} {bytes : List UInt8} {line : Line} :
    Prints level bytes line ↔ lineOf level bytes = line := by
  constructor
  · rintro ⟨hmethod, s, hs, ht⟩
    rw [← Method.name_ofLevel, Method.name_inj] at hmethod
    rw [lineOf, Text.decodeLossy_eq_iff.mpr hs, Text.trimEnd_eq_iff.mpr ht, ← hmethod]
  · rintro rfl
    exact ⟨Method.name_ofLevel level, _, Text.decodeLossy_eq_iff.mp rfl, Text.trimEnd_eq_iff.mp rfl⟩

theorem forall₂_prints {level : Log.Level} {gs : List (List UInt8)} {lines : List Line} :
    List.Forall₂ (Prints level) gs lines ↔ gs.map (lineOf level) = lines := by
  have hprints : Prints level = fun bytes line => lineOf level bytes = line := by
    funext bytes line
    exact propext prints_iff
  rw [hprints, ← List.forall₂_eq_eq_eq, List.forall₂_map_left_iff]

namespace Writer

def use (w : Writer) : Use → List Line × Writer
  | .write bytes => ([], w.write bytes)
  | .flush => w.flush

def run (w : Writer) : List Use → List Line × Writer
  | [] => ([], w)
  | u :: us => ((w.use u).1 ++ ((w.use u).2.run us).1, ((w.use u).2.run us).2)

def printed (level : Log.Level) (uses : List Use) : List Line :=
  ((new level).run uses).1 ++ ((new level).run uses).2.finish

/-- What the uses until now have come to: lines of whole groups, and the bytes that are pending. -/
structure Account (level : Log.Level) (past : List Use) (lines : List Line) (w : Writer) :
    Prop where
  kept : w.level = level
  held : w.buffer = pending past
  /-- Whatever comes next goes on with the bytes that are held. -/
  shown : ∃ gs, gs.map (lineOf level) = lines ∧
    ∀ rest, groups (past ++ rest) = gs ++ groups (.write w.buffer :: rest)

section Accounts

variable {level : Log.Level} {past : List Use} {lines : List Line} {w : Writer}

theorem flush_eq (w : Writer) :
    w.flush = ((filled w.buffer).map (lineOf w.level), { w with buffer := [] }) := by
  obtain ⟨level, buffer⟩ := w
  cases buffer <;> rfl

theorem finish_eq (w : Writer) : w.finish = (filled w.buffer).map (lineOf w.level) := by
  rw [finish, flush_eq]

theorem finish_write (level : Log.Level) (bytes : List UInt8) :
    ((new level).write bytes).finish = (filled bytes).map (lineOf level) :=
  finish_eq _

theorem account_new (level : Log.Level) : Account level [] [] (new level) :=
  ⟨rfl, rfl, [], rfl, fun _ => groups_write_nil.symm⟩

theorem Account.use (h : Account level past lines w) (u : Use) :
    Account level (past ++ [u]) (lines ++ (w.use u).1) (w.use u).2 := by
  obtain ⟨hlevel, hheld, gs, rfl, hgs⟩ := h
  cases u with
  | write b =>
    refine ⟨hlevel, ?_, gs, (List.append_nil _).symm, fun rest => ?_⟩
    · rw [pending_write, ← hheld]
      rfl
    · rw [List.append_assoc, List.singleton_append, hgs, groups_write_write]
      rfl
  | flush =>
    rw [Writer.use, flush_eq]
    refine ⟨hlevel, pending_flush.symm, gs ++ filled w.buffer, ?_, fun rest => ?_⟩
    · rw [List.map_append, hlevel]
    · rw [List.append_assoc, List.singleton_append, hgs, groups_write_flush, groups_write_nil,
        List.append_assoc]

theorem Account.run (h : Account level past lines w) (us : List Use) :
    Account level (past ++ us) (lines ++ (w.run us).1) (w.run us).2 := by
  induction us generalizing past lines w with
  | nil =>
    rw [List.append_nil, Writer.run, List.append_nil]
    exact h
  | cons u us ih =>
    have hrest := ih (h.use u)
    rwa [List.append_assoc, List.append_assoc, List.singleton_append] at hrest

theorem account_of_run (level : Log.Level) (us : List Use) :
    Account level us ((new level).run us).1 ((new level).run us).2 :=
  (account_new level).run us

theorem printed_eq (level : Log.Level) (us : List Use) :
    printed level us = (groups us).map (lineOf level) := by
  obtain ⟨hlevel, -, gs, hlines, hgs⟩ := account_of_run level us
  have hall := hgs []
  rw [List.append_nil, groups_write] at hall
  rw [printed, finish_eq, hlevel, ← hlines, hall, List.map_append]

/-- At each moment the lines are those of whole groups, and what was written besides is held. -/
theorem shown_of_run (level : Log.Level) (past rest : List Use) :
    ∃ gs, gs <+: groups (past ++ rest) ∧
      List.Forall₂ (Prints level) gs ((new level).run past).1 ∧
      gs.flatten ++ ((new level).run past).2.buffer = past.flatMap Use.bytes := by
  obtain ⟨-, -, gs, hlines, hgs⟩ := account_of_run level past
  refine ⟨gs, ⟨_, (hgs rest).symm⟩, forall₂_prints.mpr hlines, ?_⟩
  have hall := congrArg List.flatten (hgs [])
  rw [List.append_nil, flatten_groups, List.flatten_append, flatten_groups] at hall
  rw [hall]
  simp [Use.bytes]

theorem printed_recut (level : Log.Level) (before after : List Use)
    {pieces pieces' : List (List UInt8)} (h : pieces.flatten = pieces'.flatten) :
    printed level (before ++ (pieces.map .write ++ after)) =
      printed level (before ++ (pieces'.map .write ++ after)) := by
  have hsame : stretches (pieces.map .write ++ after) = stretches (pieces'.map .write ++ after) := by
    rw [stretches_writes, stretches_writes, h]
  rw [printed_eq, printed_eq, groups, groups, stretches_congr hsame]

end Accounts

/-- What a console receives of a writer. -/
structure WriterLaw (level : Log.Level) (uses : List Use) : Prop where
  /-- One line for each group, in order. -/
  shown : ∀ lines, printed level uses = lines ↔ List.Forall₂ (Prints level) (groups uses) lines
  /-- No byte is in two groups or in none. -/
  whole : (groups uses).flatten = uses.flatMap Use.bytes
  /-- At each moment the lines are those of whole groups, and the writer holds the rest. -/
  during : ∀ past rest, uses = past ++ rest →
    ((new level).run past).2.buffer = pending past ∧
      ∃ gs, gs <+: groups uses ∧ List.Forall₂ (Prints level) gs ((new level).run past).1 ∧
        gs.flatten ++ pending past = past.flatMap Use.bytes
  /-- The same bytes in other pieces are shown as the same lines. -/
  recut : ∀ before (pieces pieces' : List (List UInt8)) after,
    uses = before ++ (pieces.map .write ++ after) → pieces.flatten = pieces'.flatten →
      printed level (before ++ (pieces'.map .write ++ after)) = printed level uses

theorem writer_law (level : Log.Level) (uses : List Use) : WriterLaw level uses where
  shown lines := by rw [forall₂_prints, printed_eq]
  whole := flatten_groups uses
  during past rest huses := by
    subst huses
    have hheld := (account_of_run level past).held
    refine ⟨hheld, ?_⟩
    rw [← hheld]
    exact shown_of_run level past rest
  recut before pieces pieces' after huses hpieces := by
    subst huses
    exact (printed_recut level before after hpieces).symm

/-- A flush inside a character breaks it in two, and a cut between two writes does not. -/
example : printed .warn [.write [0xE2, 0x96], .write [0x88, 0x0A], .flush, .write [0xE2, 0x96],
    .flush, .write [], .flush, .write [0x88]] =
      [⟨.warn, "\u2588"⟩, ⟨.warn, "\ufffd"⟩, ⟨.warn, "\ufffd"⟩] := by
  decide

end Writer

theorem lines_eq (e : Log.Entry) :
    lines e = [⟨Method.ofLevel e.level, Text.trimEnd (entryText e)⟩] := by
  have hfull : Text.encode (entryText e) ≠ [] := by
    rw [Text.encode_eq, entryText, String.toList_append]
    simp
  have hgroup : filled (Text.encode (entryText e)) = [Text.encode (entryText e)] :=
    List.filter_cons_of_pos (by simpa using hfull)
  have hline : lineOf e.level (Text.encode (entryText e)) =
      ⟨Method.ofLevel e.level, Text.trimEnd (entryText e)⟩ := by
    rw [lineOf, Text.decodeLossy_encode]
  rw [lines, Writer.finish_write, hgroup, List.map_singleton, hline]

end Chip8Frame.Console
