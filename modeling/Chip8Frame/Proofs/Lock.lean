import Chip8Frame.Proofs.Orderly

/-! The lock of a frame and the state check of its supervisor agree. A command that finds the lock
taken is turned away; one that obtains it finds a supervisor that boots. So no command is ever
refused as busy, none waits for the end of a run, none is carried out twice, and there is one guest
at a time. The session behind a frame goes through a history of its own, in which no boot is
dropped and whose commands are those that obtained the lock. -/

namespace Chip8Frame.Browser

open Host (Session)

namespace Frame

def waiting (f : Frame) : List (Binary64 × Host.Command) := f.tasks.filterMap Task.command?

/-- The command whose task is polled, whatever comes of it. -/
def taken? (f : Frame) : Happening → Option (Binary64 × Host.Command)
  | .turn i => f.tasks[i]?.bind Task.command?
  | _ => none

def arrivals (f : Frame) (x : Happening) : List (Binary64 × Host.Command) :=
  ((f.next x).tasks.drop (f.kept x).length).filterMap Task.command?

def arrived (p : Opening) : List Happening → List (Binary64 × Host.Command)
  | [] => []
  | x :: h => (after p h).arrivals x ++ arrived p h

def taken (p : Opening) : List Happening → List (Binary64 × Host.Command)
  | [] => []
  | x :: h => ((after p h).taken? x).toList ++ taken p h

/-- The commands that obtained the lock, newest first. -/
def started (p : Opening) : List Happening → List (Binary64 × Host.Command)
  | [] => []
  | x :: h => ((after p h).started? x).toList ++ started p h

structure LockLaw (p : Opening) (h : List Happening) : Prop where
  /-- Where the lock is taken, a command is reported and gone, and nothing else changes. -/
  turnedAway : (after p h).locked = true → ∀ i c w,
    (after p h).tasks[i]? = some (.command c w) →
      (after p h).turn i =
        { (after p h).report .commandRefused with tasks := (after p h).tasks.eraseIdx i }
  /-- Where it is free, the supervisor is idle or faulted. -/
  ready : (after p h).locked = false → ∀ b, (after p h).bridge = some b →
    b.session.context.state = .idle ∨ ∃ fault, b.session.context.state = .faulted fault
  /-- One task holds a taken lock, and with it the only boot in flight. -/
  single : (after p h).tasks.countP Task.holds = (after p h).locked.toNat ∧
    ∀ b, (after p h).bridge = some b → b.session.flight.isSome = (after p h).locked
  /-- No guest is made while another one comes up or runs. -/
  alone : (after p h).locked = true → ∀ x,
    ((after p h).next x).guests.length = (after p h).guests.length
  /-- A queued command is taken up once or still waits. -/
  conserved : (arrived p h).Perm (taken p h ++ (after p h).waiting)
  carriedOut : (started p h).Sublist (taken p h)
  /-- The session went through the commands that obtained the lock; none of them was busy. -/
  session : ∀ b, (after p h).bridge = some b → ∃ o es,
    Session.Possible o es ∧ Session.after o es = b.session ∧
      es.filterMap Session.Event.command? = started p h ∧ (∀ e ∈ es, e.keeps = true) ∧
      ∀ name, .error (.busy name) ∉ Session.results o es

section Law

variable {p : Opening} {h : List Happening}

theorem turned_away {f : Frame} (hl : f.locked = true) {i : Nat} {c : Host.Command} {w : Binary64}
    (hi : f.tasks[i]? = some (.command c w)) :
    f.turn i = { f.report .commandRefused with tasks := f.tasks.eraseIdx i } := by
  rw [turn_of_some hi]
  simp only [pollTask, hl, if_true]
  rfl

theorem started?_of_bare {f : Frame} (ho : f.Orderly) (hb : f.bridge = none) (x : Happening) :
    f.started? x = none := by
  cases x with
  | turn i => simp [started?, (ho.bare hb).1]
  | _ => rfl

theorem started_of_bare (hb : (after p h).bridge = none) : started p h = [] := by
  induction h with
  | nil => rfl
  | cons x h ih =>
    have hb' := (next_advances (after_orderly p h) x).bare hb
    simp [started, started?_of_bare (after_orderly p h) hb', ih hb']

/-- The session behind a frame has a history of its own. -/
theorem session_history {b : Bridge} (hb : (after p h).bridge = some b) :
    ∃ o es, Session.Possible o es ∧ Session.after o es = b.session ∧
      es.filterMap Session.Event.command? = started p h ∧ ∀ e ∈ es, e.keeps = true := by
  induction h generalizing b with
  | nil => cases hb
  | cons x h ih =>
    have ho := after_orderly p h
    have ha := next_advances ho x
    cases hc : (after p h).bridge with
    | none =>
      obtain ⟨o, hs⟩ := ha.installed hc b hb
      refine ⟨o, [], trivial, hs.symm, ?_, by simp⟩
      simp [started, started?_of_bare ho hc, started_of_bare hc]
    | some c =>
      obtain ⟨o, es, hp, he, hn, hk⟩ := ih hc
      obtain ⟨b', fs, hb', hr, hks, hcs⟩ := ha.led c hc
      obtain rfl := Option.some.inj (hb'.symm.trans hb)
      rw [← he] at hr
      obtain ⟨hp', he'⟩ := hr.possible hp
      refine ⟨o, fs ++ es, hp', he', ?_, ?_⟩
      · rw [List.filterMap_append, hcs, hn, started]
      · intro e hm
        rcases List.mem_append.mp hm with hm | hm
        · exact hks e hm
        · exact hk e hm

theorem ready_of_unlocked (hl : (after p h).locked = false) {b : Bridge}
    (hb : (after p h).bridge = some b) : b.session.context.state.acceptsBoot = true := by
  obtain ⟨o, es, hp, he, -, hk⟩ := session_history hb
  have hf := (after_orderly p h).grounded hl b hb
  rw [← he] at hf ⊢
  exact Session.accepts_of_grounded hp hk hf

theorem Orderly.flight_isSome {f : Frame} (ho : f.Orderly) {b : Bridge} (hb : f.bridge = some b) :
    b.session.flight.isSome = f.locked := by
  cases hl : f.locked with
  | false => rw [ho.grounded hl b hb, Option.isSome_none]
  | true =>
    have hc := ho.holders
    rw [hl] at hc
    obtain ⟨t, ht, hh⟩ := List.countP_pos_iff.mp (by rw [hc]; decide)
    have hs := ho.served t ht hh
    cases t with
    | command | watching => cases hh
    | loading n url =>
      obtain ⟨b', fl, hb', hf, -⟩ := hs
      obtain rfl := Option.some.inj (hb.symm.trans hb')
      rw [hf, Option.isSome_some]
    | running =>
      obtain ⟨b', fl, hb', hf, -⟩ := hs
      obtain rfl := Option.some.inj (hb.symm.trans hb')
      rw [hf, Option.isSome_some]

theorem started?_of_locked {f : Frame} (hl : f.locked = true) (x : Happening) :
    f.started? x = none := by
  cases x with
  | turn i => simp [started?, hl]
  | _ => rfl

theorem waiting_kept (f : Frame) (x : Happening) :
    f.waiting.Perm ((f.taken? x).toList ++ (f.kept x).filterMap Task.command?) := by
  cases x with
  | turn i =>
    cases hi : f.tasks[i]? with
    | none =>
      have hlen : f.tasks.length ≤ i := List.getElem?_eq_none_iff.mp hi
      simp [waiting, taken?, kept, left?, hi, List.take_of_length_le hlen,
        List.drop_eq_nil_of_le (Nat.le_succ_of_le hlen)]
    | some t =>
      have hleft : (f.left? i).toList.filterMap Task.command? = [] := by
        apply List.filterMap_eq_nil_iff.mpr
        intro u hu
        rw [left?_of_some hi] at hu
        exact pollTask_left f t u (Option.mem_toList.mp hu)
      have hsplit := congrArg (List.filterMap Task.command?) (tasks_split hi)
      simp only [waiting, taken?, kept, hi, Option.bind_some, List.filterMap_append, hleft,
        List.append_nil]
      rw [hsplit, List.filterMap_append, List.filterMap_cons]
      cases t.command? with
      | none => simp
      | some a => simp
  | _ => simp [waiting, taken?, kept]

theorem arrivals_of_tasks {f : Frame} {x : Happening} {ts : List Task}
    (h : (f.next x).tasks = f.kept x ++ ts) : f.arrivals x = ts.filterMap Task.command? := by
  rw [arrivals, h, List.drop_left]

theorem arrived_perm : (arrived p h).Perm (taken p h ++ (after p h).waiting) := by
  induction h with
  | nil => simp [arrived, taken, waiting, after, start, new]
  | cons x h ih =>
    obtain ⟨ts, hts, -⟩ := (next_advances (after_orderly p h) x).posted
    have hnew := arrivals_of_tasks hts
    have hw : (after p (x :: h)).waiting =
        ((after p h).kept x).filterMap Task.command? ++ ts.filterMap Task.command? := by
      rw [waiting, after_cons, hts, List.filterMap_append]
    have hk := waiting_kept (after p h) x
    rw [arrived, hnew, taken, hw]
    generalize ((after p h).taken? x).toList = new at hk ⊢
    generalize ((after p h).kept x).filterMap Task.command? = old at hk ⊢
    generalize ts.filterMap Task.command? = queued
    have hold : (arrived p h ++ queued).Perm (taken p h ++ (new ++ old) ++ queued) :=
      (ih.trans (hk.append_left (taken p h))).append_right queued
    have hsame : taken p h ++ (new ++ old) ++ queued = (taken p h ++ new) ++ (old ++ queued) := by
      simp only [List.append_assoc]
    rw [hsame] at hold
    exact List.perm_append_comm.trans (hold.trans (List.perm_append_comm.append_right _))

theorem started_sublist : (started p h).Sublist (taken p h) := by
  induction h with
  | nil => exact .refl []
  | cons x h ih =>
    refine List.Sublist.append ?_ ih
    cases x with
    | turn i =>
      simp only [started?, taken?]
      split
      · exact List.nil_sublist _
      · exact .refl _
    | _ => exact .refl _

theorem lock_law (p : Opening) (h : List Happening) : LockLaw p h where
  turnedAway hl _ _ _ hi := turned_away hl hi
  ready hl b hb := by
    have ha := ready_of_unlocked hl hb
    cases hs : b.session.context.state with
    | idle => exact .inl rfl
    | faulted fault => exact .inr ⟨fault, rfl⟩
    | booting | running =>
      rw [hs] at ha
      cases ha
  single := ⟨(after_orderly p h).holders, fun _ hb => (after_orderly p h).flight_isSome hb⟩
  alone hl x := (next_advances (after_orderly p h) x).guests (started?_of_locked hl x)
  conserved := arrived_perm
  carriedOut := started_sublist
  session b hb := by
    obtain ⟨o, es, hp, he, hn, hk⟩ := session_history hb
    exact ⟨o, es, hp, he, hn, hk, fun name => Session.busy_notMem_results hp hk name⟩

end Law

end Frame

end Chip8Frame.Browser
