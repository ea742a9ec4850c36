import Chip8Frame.Proofs.LaunchOrder
import Chip8Frame.Proofs.StaleHooks

/-! Uncaught errors are recorded and never acted on. Histories that differ in uncaught errors only
go through the same turns; what tells them apart is the flag of a latch, and the log. The flag
itself is read off a history: it stands for the errors of the latest run that got under way. -/

namespace Chip8Frame

/-- A report of a clean exit mentions whether an error was recorded; nothing else depends on it. -/
def Effect.wiped : Effect → Effect
  | .note (.exitedCleanly run _) => .note (.exitedCleanly run false)
  | e => e

namespace Host

def Latch.wiped (l : Latch) : Latch := { l with errored := false }

namespace Session

def wiped (s : Session) : Session :=
  { s with
    context := { s.context with latch := s.context.latch.wiped }
    retired := s.retired.map Latch.wiped }

end Session

def Turn.wiped (t : Turn) : Turn := ⟨t.session.wiped, t.effects.map Effect.wiped, t.progress⟩

namespace Session

def Event.uncaught : Event → Bool
  | .recordError _ _ => true
  | _ => false

def calm (es : List Event) : List Event := es.filter fun e => !e.uncaught

/-- The turns of all other events, newest first, but for what they show of the errors. -/
def acts (o : Boot.Options) : List Event → List Turn
  | [] => []
  | e :: es => if e.uncaught then acts o es else ((after o es).next e).wiped :: acts o es

section Steps

variable {s u : Session} {e : Event} {t : Turn}

/-- The sessions differ at most in what their latches hold. -/
inductive Marked (s : Session) : Session → Prop where
  | intro (b : Bool) (latches : List Latch)
      (h : latches.map Latch.wiped = s.retired.map Latch.wiped) :
      Marked s { s with
        context := { s.context with latch := { s.context.latch with errored := b } }
        retired := latches }

theorem Marked.wiped_eq (h : Marked s u) : u.wiped = s.wiped := by
  cases h with
  | intro b latches h =>
    simp only [wiped, h]
    rfl

theorem marked_of_wiped (h : u.wiped = s.wiped) : Marked s u := by
  obtain ⟨⟨o, st, su, ⟨a, b⟩, ru, lr⟩, fl, ch, latches⟩ := u
  simp only [wiped, Latch.wiped, Session.mk.injEq, Context.mk.injEq, Latch.mk.injEq, and_true] at h
  obtain ⟨⟨rfl, rfl, rfl, rfl, rfl, rfl⟩, rfl, rfl, hl⟩ := h
  exact .intro b latches hl

theorem Marked.turn {v : Turn} (h : Marked t.session v.session)
    (he : v.effects.map Effect.wiped = t.effects.map Effect.wiped)
    (hp : v.progress = t.progress) : v.wiped = t.wiped := by
  simp only [Turn.wiped, h.wiped_eq, he, hp]

theorem Marked.enabled (h : Marked s u) (e : Event) : u.Enabled e ↔ s.Enabled e := by
  cases h with
  | intro b latches h =>
    have hlen : latches.length = s.retired.length := by simpa using congrArg List.length h
    cases e <;> simp only [Enabled, hlen] <;> exact Iff.rfl

theorem record_wiped (l : Latch) (message : String) : (l.record message).1.wiped = l.wiped := by
  unfold Latch.record
  split <;> rfl

theorem Step.uncaught_unseen (hs : Step s e t) (he : e.uncaught = true) :
    t.session.wiped = s.wiped ∧ t.progress = .pending ∧
      ∀ b, (e.backend b).replay t.effects = b := by
  cases hs with
  | recorded =>
    refine ⟨?_, rfl, fun b => replay_record b _ _⟩
    simp only [wiped, record_wiped]
  | @recordedLate n m l hl =>
    refine ⟨?_, rfl, fun b => replay_record b _ _⟩
    have hsame : (s.retired.set n (l.record m).1).map Latch.wiped = s.retired.map Latch.wiped := by
      apply List.ext_getElem?
      intro i
      simp only [List.getElem?_map, List.getElem?_set']
      by_cases hi : n = i
      · subst hi
        simp [hl, record_wiped]
      · simp [hi]
    simp only [wiped, hsame]
  | waiting hl | hookLost hl | exited hl =>
    rcases hl.2 with ⟨rfl, -⟩ | ⟨rfl, -⟩ <;> cases he
  | _ => cases he

theorem Step.marked (hs : Step s e t) (h : Marked s u) (he : e.uncaught = false) :
    ∃ v, Step u e v ∧ v.wiped = t.wiped := by
  cases h with
  | intro b latches h =>
    cases hs with
    | bannerShown hf hp => exact ⟨_, .bannerShown hf hp, Marked.turn (.intro b latches h) rfl rfl⟩
    | nothingToRestart hf hn =>
      exact ⟨_, .nothingToRestart hf hn, Marked.turn (.intro b latches h) rfl rfl⟩
    | refused hf hq hx => exact ⟨_, .refused hf hq hx, Marked.turn (.intro b latches h) rfl rfl⟩
    | busy hf hq hx ha => exact ⟨_, .busy hf hq hx ha, Marked.turn (.intro b latches h) rfl rfl⟩
    | accepted hf hq hx ha =>
      exact ⟨_, .accepted hf hq hx ha, Marked.turn (.intro b latches h) rfl rfl⟩
    | launchFailed hf hg => exact ⟨_, .launchFailed hf hg, Marked.turn (.intro b latches h) rfl rfl⟩
    | launched hf hg => exact ⟨_, .launched hf hg, Marked.turn (.intro false latches h) rfl rfl⟩
    | startFailed hf hg => exact ⟨_, .startFailed hf hg, Marked.turn (.intro b latches h) rfl rfl⟩
    | waiting hl hp => exact ⟨_, .waiting hl hp, Marked.turn (.intro b latches h) rfl rfl⟩
    | hookLost hl hp => exact ⟨_, .hookLost hl hp, Marked.turn (.intro b latches h) rfl rfl⟩
    | exited hl hp =>
      refine ⟨_, .exited hl hp, ?_⟩
      simp only [Context.exited]
      split
      · exact Marked.turn (.intro b latches h) rfl rfl
      · exact Marked.turn (.intro b latches h) rfl rfl
    | abandoned hf hg => exact ⟨_, .abandoned hf hg, Marked.turn (.intro b latches h) rfl rfl⟩
    | signalled hn => exact ⟨_, .signalled hn, Marked.turn (.intro b latches h) rfl rfl⟩
    | cloned hn => exact ⟨_, .cloned hn, Marked.turn (.intro b latches h) rfl rfl⟩
    | dropped hn => exact ⟨_, .dropped hn, Marked.turn (.intro b latches h) rfl rfl⟩
    | recorded | recordedLate => cases he
    | reset hf =>
      have hl : (latches ++ [{ s.context.latch with errored := b }]).map Latch.wiped =
          (s.retired ++ [s.context.latch]).map Latch.wiped := by
        simp only [List.map_append, h]
        rfl
      exact ⟨_, .reset hf, Marked.turn (.intro false _ hl) rfl rfl⟩

end Steps

theorem replay_wiped (b : Surface.Headless) (fx : List Effect) :
    b.replay (fx.map Effect.wiped) = b.replay fx := by
  induction fx generalizing b with
  | nil => rfl
  | cons e fx ih =>
    cases e with
    | note n => cases n <;> exact ih b
    | surface call => exact ih _

/-- Two histories that go through the same turns, but for what is recorded on latches and what
the log says of it. -/
structure Unheeded (o : Boot.Options) (es fs : List Event) : Prop where
  session : (after o fs).wiped = (after o es).wiped
  acts : acts o fs = acts o es
  page : shown o fs = shown o es
  launched : launches o fs = launches o es
  ended : results o fs = results o es

theorem Unheeded.trans {o : Boot.Options} {es fs gs : List Event} (h : Unheeded o es fs)
    (k : Unheeded o fs gs) : Unheeded o es gs where
  session := k.session.trans h.session
  acts := k.acts.trans h.acts
  page := k.page.trans h.page
  launched := k.launched.trans h.launched
  ended := k.ended.trans h.ended

theorem Unheeded.symm {o : Boot.Options} {es fs : List Event} (h : Unheeded o es fs) :
    Unheeded o fs es :=
  ⟨h.session.symm, h.acts.symm, h.page.symm, h.launched.symm, h.ended.symm⟩

section Histories

variable {o : Boot.Options} {es fs gs : List Event} {e : Event}

theorem Unheeded.uncaught (h : Unheeded o es fs) (he : (after o fs).Enabled e)
    (hu : e.uncaught = true) : Unheeded o es (e :: fs) := by
  obtain ⟨hw, hp, hb⟩ := (next_step he).uncaught_unseen hu
  constructor
  · exact hw.trans h.session
  · rw [Session.acts, if_pos hu, h.acts]
  · rw [shown_cons, hb, h.page]
  · rw [launches, hp, h.launched]
  · rw [results, hp, h.ended]

theorem Unheeded.cons (h : Unheeded o es fs) (he : (after o es).Enabled e)
    (hu : e.uncaught = false) :
    (after o fs).Enabled e ∧ Unheeded o (e :: es) (e :: fs) := by
  obtain ⟨v, hv, hw⟩ := (next_step he).marked (marked_of_wiped h.session) hu
  obtain ⟨hsession, heffects, hprogress⟩ := Turn.mk.inj hw
  refine ⟨hv.enabled, ?_⟩
  constructor
  · rw [after_cons, after_cons, hv.next_eq, hsession]
  · simp only [Session.acts, hu, Bool.false_eq_true, if_false, hv.next_eq, hw, h.acts]
  · rw [shown_cons, shown_cons, hv.next_eq, h.page, ← replay_wiped, heffects, replay_wiped]
  · rw [launches, launches, hv.next_eq, hprogress, h.launched]
  · rw [results, results, hv.next_eq, hprogress, h.ended]

theorem calm_unheeded (h : Possible o es) : Possible o (calm es) ∧ Unheeded o (calm es) es := by
  induction es with
  | nil => exact ⟨trivial, rfl, rfl, rfl, rfl, rfl⟩
  | cons e es ih =>
    obtain ⟨hp, hu⟩ := ih h.2
    cases he : e.uncaught with
    | true =>
      have hcalm : calm (e :: es) = calm es := by simp [calm, he]
      rw [hcalm]
      exact ⟨hp, hu.uncaught h.1 he⟩
    | false =>
      have hcalm : calm (e :: es) = e :: calm es := by simp [calm, he]
      obtain ⟨henabled, hcons⟩ := hu.symm.cons h.1 he
      rw [hcalm]
      exact ⟨⟨henabled, hp⟩, hcons.symm⟩

theorem unheeded_of_calm (h : Possible o es) (k : Possible o fs) (hc : calm fs = calm es) :
    Unheeded o es fs := by
  have hk := (calm_unheeded k).2
  rw [hc] at hk
  exact (calm_unheeded h).2.symm.trans hk

theorem possible_insert (h : Possible o (fs ++ es)) {n : Nat}
    (hn : n ≤ (after o es).retired.length) (message : String) :
    Possible o (fs ++ .recordError n message :: es) := by
  induction fs with
  | nil => exact ⟨hn, h⟩
  | cons f fs ih =>
    have hpos := ih h.2
    have hcalm : calm (fs ++ .recordError n message :: es) = calm (fs ++ es) := by
      simp [calm, Event.uncaught]
    have hu := unheeded_of_calm h.2 hpos hcalm
    exact ⟨((marked_of_wiped hu.session).enabled f).mpr h.1, hpos⟩

end Histories

/-! What a latch says. -/

/-- The latch of a number; every context has one, and one that does not exist yet is new. -/
def latch (s : Session) (n : Nat) : Latch := (s.latches[n]?).getD .new

/-- The state of a context, up to its hard reset if it had one. -/
def contextState (o : Boot.Options) (n : Nat) : List Event → State
  | [] => .idle
  | e :: es =>
      if n = (after o (e :: es)).retired.length then (after o (e :: es)).context.state
      else contextState o n es

/-- The errors that came to a latch in the latest run of its context that got under way, newest
first. -/
def caught (o : Boot.Options) (n : Nat) : List Event → List String
  | [] => []
  | e :: es =>
      match e with
      | .launched (.ok ()) => if n = (after o es).retired.length then [] else caught o n es
      | .recordError m message =>
          if m = n ∧ contextState o n es = .running then message :: caught o n es
          else caught o n es
      | _ => caught o n es

/-- The calls on a latch that gave true back in the latest run of its context that got under way. -/
def counted (o : Boot.Options) (n : Nat) : List Event → Nat
  | [] => 0
  | e :: es =>
      match e with
      | .launched (.ok ()) => if n = (after o es).retired.length then 0 else counted o n es
      | .recordError m message =>
          if m = n ∧ ((after o es).recordError m message).1 = some true then counted o n es + 1
          else counted o n es
      | _ => counted o n es

section Latches

variable {s : Session} {e : Event} {t : Turn} {m n : Nat}

theorem latch_eq (s : Session) (n : Nat) :
    s.latch n = if n = s.retired.length then s.context.latch else (s.retired[n]?).getD .new := by
  unfold latch latches
  rcases Nat.lt_trichotomy n s.retired.length with hn | hn | hn
  · simp [List.getElem?_append_left hn, Nat.ne_of_lt hn]
  · simp [hn]
  · rw [List.getElem?_eq_none (by simp; omega), List.getElem?_eq_none (by omega)]
    simp [Nat.ne_of_gt hn]

theorem latch_current (s : Session) : s.latch s.retired.length = s.context.latch := by
  rw [latch_eq, if_pos rfl]

theorem latch_of_retired (hr : t.session.retired = s.retired) (hn : n ≠ s.retired.length) :
    t.session.latch n = s.latch n := by
  rw [latch_eq, latch_eq, hr, if_neg hn, if_neg hn]

theorem Step.latches_kept (hs : Step s e t) (hu : e.uncaught = false) (hr : e ≠ .hardReset) :
    t.session.retired = s.retired ∧
      (e ≠ .launched (.ok ()) → t.session.context.latch.errored = s.context.latch.errored) := by
  cases hs with
  | exited =>
    refine ⟨rfl, fun _ => ?_⟩
    simp only [landed, Context.exited]
    split <;> rfl
  | launched => exact ⟨rfl, fun h => absurd rfl h⟩
  | recorded | recordedLate => cases hu
  | reset => exact absurd rfl hr
  | _ => exact ⟨rfl, fun _ => rfl⟩

theorem recordError_latch (hm : m ≤ s.retired.length) (message : String) :
    (s.next (.recordError m message)).session.latch n =
      if m = n then ((s.latch n).record message).1 else s.latch n := by
  rcases Nat.lt_or_eq_of_le hm with hlt | rfl
  · have hl := List.getElem?_eq_getElem hlt
    have hn := (Step.recordedLate (m := message) hl).next_eq
    rw [hn, latch_eq, latch_eq]
    by_cases hmn : m = n
    · subst hmn
      simp [Nat.ne_of_lt hlt, hl, List.getElem?_set_self hlt]
    · simp [hmn]
  · have hn := (Step.recorded (s := s) (m := message)).next_eq
    rw [hn, latch_eq, latch_eq]
    by_cases hmn : s.retired.length = n
    · simp [hmn]
    · simp [hmn, Ne.symm hmn]

theorem reset_latch (hf : s.flight = none) :
    (s.next .hardReset).session.latch n = s.latch n := by
  rw [(Step.reset hf).next_eq, latch_eq, latch_eq]
  rcases Nat.lt_trichotomy n s.retired.length with hn | hn | hn
  · simp [List.getElem?_append_left hn, Nat.ne_of_lt hn, Nat.ne_of_lt (Nat.lt_succ_of_lt hn)]
  · simp [hn]
  · have hlt : ¬ n < s.retired.length := by omega
    by_cases hnew : n = s.retired.length + 1
    · simp [hnew, Context.new]
    · have hlast : ([s.context.latch] : List Latch)[n - s.retired.length]? = none :=
        List.getElem?_eq_none (by simp; omega)
      simp [hnew, Nat.ne_of_gt hn, List.getElem?_append, hlt, hlast]

theorem recordError_answer (hn : n ≤ s.retired.length) (message : String) :
    (s.recordError n message).1 = some (s.latch n).records := by
  rw [latch_eq]
  unfold recordError
  rcases Nat.lt_or_eq_of_le hn with hlt | rfl
  · simp [Nat.ne_of_lt hlt, List.getElem?_eq_getElem hlt]
  · simp

end Latches

section Flags

variable {o : Boot.Options} {es fs : List Event} {e : Event} {n : Nat}

theorem contextState_current (o : Boot.Options) (es : List Event) :
    contextState o (after o es).retired.length es = (after o es).context.state := by
  cases es with
  | nil => rfl
  | cons e es => simp [contextState]

theorem latch_armed (h : Possible o es) (n : Nat) :
    ((after o es).latch n).armed = true ↔ contextState o n es = .running := by
  induction es with
  | nil =>
    have hnew : (after o []).latch n = .new := by
      rw [latch_eq]
      split <;> rfl
    simp [hnew, contextState, Latch.new]
  | cons e es ih =>
    by_cases hn : n = (after o (e :: es)).retired.length
    · subst hn
      rw [latch_current, contextState_current]
      exact (sound_flying h).1.armed
    · have hsame : ((after o (e :: es)).latch n).armed = ((after o es).latch n).armed := by
        rw [after_cons]
        cases hu : e.uncaught with
        | true =>
          cases e with
          | recordError m message =>
            rw [recordError_latch h.1]
            split
            · exact record_armed _ _
            · rfl
          | _ => cases hu
        | false =>
          by_cases hr : e = .hardReset
          · subst hr
            rw [reset_latch (stage_eq_none.mp h.1)]
          · have hk := ((next_step h.1).latches_kept hu hr).1
            rw [after_cons, hk] at hn
            rw [latch_of_retired hk hn]
      rw [hsame, contextState, if_neg hn]
      exact ih h.2

theorem record_errored (l : Latch) (message : String) :
    (l.record message).1.errored = (l.errored || l.armed) := by
  unfold Latch.record Latch.records
  cases l.armed <;> cases he : l.errored <;> simp [he]

theorem flag_kept (h : Possible o (e :: es)) (hu : e.uncaught = false)
    (hl : e ≠ .launched (.ok ())) :
    ((after o (e :: es)).latch n).errored = ((after o es).latch n).errored := by
  rw [after_cons]
  by_cases hr : e = .hardReset
  · subst hr
    rw [reset_latch (stage_eq_none.mp h.1)]
  · obtain ⟨hk, hflag⟩ := (next_step h.1).latches_kept hu hr
    by_cases hn : n = (after o es).retired.length
    · subst hn
      have hc := latch_current ((after o es).next e).session
      rw [hk] at hc
      rw [hc, latch_current, hflag hl]
    · rw [latch_of_retired hk hn]

theorem latch_errored (h : Possible o es) (n : Nat) :
    ((after o es).latch n).errored = !(caught o n es).isEmpty := by
  induction es with
  | nil =>
    have hnew : (after o []).latch n = .new := by
      rw [latch_eq]
      split <;> rfl
    simp [hnew, caught, Latch.new]
  | cons e es ih =>
    have hes := ih h.2
    cases e with
    | recordError m message =>
      rw [after_cons, recordError_latch h.1, caught]
      by_cases hm : m = n
      · subst hm
        rw [if_pos rfl, record_errored, hes]
        by_cases hrun : contextState o m es = .running
        · rw [if_pos ⟨rfl, hrun⟩, (latch_armed h.2 m).mpr hrun]
          simp
        · have hoff : ((after o es).latch m).armed = false := by
            simpa using mt (latch_armed h.2 m).mp hrun
          simp [hrun, hoff]
      · simp [hm, hes]
    | launched result =>
      cases result with
      | error x => exact (flag_kept h rfl (by simp)).trans hes
      | ok x =>
        obtain ⟨f, hf, hst⟩ := stage_eq_some.mp h.1
        have hnext := (Step.launched hf hst).next_eq
        rw [caught]
        split
        · next hn =>
          subst hn
          rw [after_cons, hnext]
          exact congrArg Latch.errored (latch_current _)
        · next hn =>
          rw [after_cons, latch_of_retired (by rw [hnext]) hn]
          exact hes
    | _ => exact (flag_kept h rfl (by simp)).trans hes

theorem recordError_counts (h : Possible o es) (hn : n ≤ (after o es).retired.length)
    (message : String) :
    ((after o es).recordError n message).1 =
      some (decide (contextState o n es = .running ∧ caught o n es = [])) := by
  have ha := latch_armed h n
  have he := latch_errored h n
  rw [recordError_answer hn, Latch.records, he]
  cases hl : ((after o es).latch n).armed with
  | true =>
    have hrun := ha.mp hl
    cases hc : caught o n es <;> simp [hrun]
  | false =>
    have hidle : contextState o n es ≠ .running := by
      intro hr
      simp [ha.mpr hr] at hl
    simp [hidle]

theorem counted_eq (h : Possible o es) (n : Nat) :
    counted o n es = if caught o n es = [] then 0 else 1 := by
  induction es with
  | nil => rfl
  | cons e es ih =>
    have hes := ih h.2
    cases e with
    | recordError m message =>
      rw [counted, caught, recordError_counts h.2 h.1]
      by_cases hm : m = n
      · subst hm
        by_cases hrun : contextState o m es = .running
        · by_cases hc : caught o m es = [] <;> simp [hrun, hc, hes]
        · simp [hrun, hes]
      · simp [hm, hes]
    | launched result =>
      cases result with
      | error x => exact hes
      | ok x =>
        rw [counted, caught]
        split
        · rfl
        · exact hes
    | _ => exact hes

/-- What recording uncaught errors comes to, at any point of a history: nobody heeds it, a call
counts if it is the first of a run, and the flag tells of the latest run that got under way. -/
structure ErrorLaw (o : Boot.Options) (es : List Event) : Prop where
  removed : Possible o (calm es) ∧ Unheeded o es (calm es)
  inserted : ∀ fs pre n message, es = fs ++ pre → n ≤ (after o pre).retired.length →
    Possible o (fs ++ .recordError n message :: pre) ∧
      Unheeded o es (fs ++ .recordError n message :: pre)
  unheeded : ∀ fs, Possible o fs → calm fs = calm es → Unheeded o es fs
  counts : ∀ n message, n ≤ (after o es).retired.length →
    ((after o es).recordError n message).1 =
      some (decide (contextState o n es = .running ∧ caught o n es = []))
  once : ∀ n, counted o n es = if caught o n es = [] then 0 else 1
  flag : ∀ n, ((after o es).latch n).errored = true ↔ caught o n es ≠ []

theorem error_law (h : Possible o es) : ErrorLaw o es where
  removed := by
    obtain ⟨hp, hu⟩ := calm_unheeded h
    exact ⟨hp, hu.symm⟩
  inserted := by
    rintro fs pre n message rfl hn
    have hp := possible_insert h hn message
    exact ⟨hp, unheeded_of_calm h hp (by simp [calm, Event.uncaught])⟩
  unheeded fs hf hc := unheeded_of_calm h hf hc
  counts n message hn := recordError_counts h hn message
  once := counted_eq h
  flag n := by simp [latch_errored h n]

end Flags

def Sample.noisy : List Event :=
  .recordError 0 "late" :: .poll :: .signal 0 Exit.invalidOpcode :: .recordError 0 "third" ::
    .recordError 0 "second" :: .started (.ok ()) :: .recordError 0 "first" ::
    .launched (.ok ()) :: .recordError 0 "early" :: [Sample.request "PONG"]

theorem error_law_of_noise :
    Possible .default Sample.noisy ∧ Possible .default Sample.crashed ∧
    results .default Sample.noisy = results .default Sample.crashed ∧
    ((after .default Sample.noisy).latch 0).errored = true ∧
    ((after .default Sample.crashed).latch 0).errored = false := by
  have hn : Possible .default Sample.noisy := by decide +kernel
  have hc : Possible .default Sample.crashed := by decide +kernel
  have hcaught : caught .default 0 Sample.noisy = ["third", "second", "first"] := by
    decide +kernel
  have hnone : caught .default 0 Sample.crashed = [] := by decide +kernel
  refine ⟨hn, hc, ((error_law hc).unheeded Sample.noisy hn rfl).ended, ?_, ?_⟩
  · exact ((error_law hn).flag 0).mpr (by simp [hcaught])
  · simpa [hnone] using mt ((error_law hc).flag 0).mp

end Session

end Host

end Chip8Frame
