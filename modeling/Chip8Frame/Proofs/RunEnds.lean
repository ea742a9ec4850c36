import Chip8Frame.Proofs.Endings
import Chip8Frame.Proofs.RestartSize

/-! How boots end. Every boot that was accepted is in flight or has ended, and it ended once: with a
failure of its guest, or with the outcome of the first value that its exit function was passed. No
boot ends because its exit hook is lost. A boot that is polled and does not end was passed nothing,
or its module is still being loaded; calls of an exit function after the first change nothing. -/

namespace Chip8Frame.Host.Session

section Steps

variable {s u : Session} {e : Event} {t : Turn}

theorem Step.opened (hs : Step s e t) (hc : e.command? = none) :
    t.session.channels.length = s.channels.length := by
  cases hs with
  | accepted => cases hc
  | _ => simp [refuse, remember, landed, setChannel, cloneHook, dropHook]

theorem Reaches.opened {es : List Event} (h : Reaches s es u)
    (hc : ∀ e ∈ es, e.command? = none) : u.channels.length = s.channels.length := by
  induction h with
  | refl => rfl
  | tail _ he ih =>
    have hn := (next_step he).opened (hc _ List.mem_cons_self)
    exact hn.trans (ih fun x hx => hc x (List.mem_cons_of_mem _ hx))

theorem command_boot (hf : s.flight = none) (w : Binary64) (c : Command) :
    (s.command w c).session.boot? = (s.attempt? w c).map fun a => (a.channel, a.config) := by
  have hs := command_step hf w c
  cases ha : s.attempt? w c with
  | some a =>
    obtain ⟨-, g, hg, hc⟩ := command_accepted hf ha
    obtain ⟨-, -, hch, -⟩ := attempt?_eq_some ha
    obtain ⟨_, _, _, config, -, -, -, -, -, hx, -⟩ := hs.takeoff hf hg
    exact boot?_eq_some.mpr ⟨g, hg, by rw [hx, hch], hc⟩
  | none =>
    refine boot?_eq_none.mpr ?_
    cases hg : (s.command w c).session.flight with
    | none => rfl
    | some g =>
      obtain ⟨w', c', r, config, he, hr, hc, hst, -⟩ := hs.takeoff hf hg
      cases he
      simp [attempt?_of_resolve hr hc, hst] at ha

theorem Step.channels_of_turned_away {w : Binary64} {c : Command}
    (hs : Step s (.command w c) t) (hn : t.session.boot? = none) :
    t.session.channels = s.channels := by
  cases hs with
  | accepted => cases hn
  | waiting hl | hookLost hl | exited hl => exact hl.not_command.elim
  | _ => rfl

theorem command_opened (hf : s.flight = none) (w : Binary64) (c : Command) :
    (s.command w c).session.channels.length =
      s.channels.length + (s.attempt? w c).toList.length := by
  have hs := command_step hf w c
  have hb := command_boot hf w c
  cases ha : s.attempt? w c with
  | some a =>
    rw [ha] at hb
    obtain ⟨g, hg, -⟩ := boot?_eq_some.mp hb
    obtain ⟨_, _, _, _, -, -, -, -, hch, -⟩ := hs.takeoff hf hg
    simp [hch]
  | none =>
    rw [ha] at hb
    exact congrArg List.length (hs.channels_of_turned_away hb)

end Steps

end Chip8Frame.Host.Session

namespace Chip8Frame.Browser

open Host (Session Turn BootError Outcome)
open Host.Session (exitResult)

/-- A boot that ended, by its channel and its configuration, with its result. -/
structure Ended where
  boot : Nat × Boot.Config
  result : Except BootError Outcome

namespace Frame

def endsIn (f : Frame) : Happening → List Ended
  | .turn i =>
      ((f.tasks[i]?).bind fun t =>
        (f.bootOf? t).bind fun boot => (f.ending? t).map (⟨boot, ·⟩)).toList
  | _ => []

def ends (p : Opening) : List Happening → List Ended
  | [] => []
  | x :: h => (after p h).endsIn x ++ ends p h

/-- The frames in which somebody can act: after what happened, while a run function acts, and after
each action. -/
inductive Scene (p : Opening) : List ExitCall → Frame → Prop where
  | between (h : List Happening) : Scene p (calls p h) (after p h)
  | entered {h : List Happening} {n : Nat} {url : String} {b : Bridge}
      (ht : .loading n url ∈ (after p h).tasks) (hb : (after p h).bridge = some b)
      (arguments : Option (List String)) :
      Scene p (calls p h) (((after p h).brought b url).record (.runGuest arguments))
  | acted {cs : List ExitCall} {f : Frame} (hs : Scene p cs f) (self : Option Nat) (a : Action) :
      Scene p (cs ++ (exitCall? self f a).toList) (act self f a).2

structure RunLaw (p : Opening) (h : List Happening) : Prop where
  /-- The accepted boots, newest first: the one in flight if there is one, and those that ended. -/
  accounted : ((after p h).boot?.toList ++ (ends p h).map Ended.boot).map Prod.snd =
    (boots p h).map Accepted.config
  /-- Each has a channel of its own. -/
  numbered : ((after p h).boot?.toList ++ (ends p h).map Ended.boot).map Prod.fst =
    (List.range (boots p h).length).reverse
  /-- A boot ended with a failure of its guest or with the outcome of the first value. -/
  verdict : ∀ x ∈ ends p h, (∃ e, x.result = .error (.guest e)) ∨
    ∃ v vs, passed (calls p h) x.boot.1 = v :: vs ∧
      x.result = .ok (Session.outcomeOf x.boot.2.program (exitCode v))
  undropped : ∀ t ∈ (after p h).tasks, (after p h).ending? t ≠ some (.error .exitHookDropped)
  /-- A command that ends is reported, and frees the lock. -/
  reported : ∀ i t r, (after p h).tasks[i]? = some t → (after p h).ending? t = some r →
    ∃ g, after p (.turn i :: h) = (Frame.finish g r).leave i none
  /-- A boot that is polled ends, unless its module is loaded or it was passed nothing. -/
  waits : ∀ i t n c, (after p h).tasks[i]? = some t → t.holds = true →
    (after p h).boot? = some (n, c) → (after p h).ending? t = none →
      (after p h).Loads t ∨ passed (calls p (.turn i :: h)) n = []
  /-- What a guest does in its run function, it does in scenes. -/
  acting : ∀ n url b, .loading n url ∈ (after p h).tasks → (after p h).bridge = some b →
    ∀ (arguments : Option (List String)) (as : List Action),
      Scene p (calls p h ++ exitCalls (some n)
          (((after p h).brought b url).record (.runGuest arguments)) as)
        (actAll (some n) (((after p h).brought b url).record (.runGuest arguments)) as).2
  /-- The exit function of the boot in flight can be called all the time. -/
  callable : ∀ cs f, Scene p cs f → ∀ n c, f.boot? = some (n, c) →
    ∃ guest, f.exitChannel? (some guest) = some n
  /-- Only the first call matters, and only while the boot is in flight. -/
  inert : ∀ cs f, Scene p cs f → ∀ guest n v, f.exitChannel? guest = some n →
    passed cs n ≠ [] ∨ f.boot?.map Prod.fst ≠ some n →
      (f.callExit guest v).1 = .ok ∧
        ∃ events, (f.callExit guest v).2 = { f with realm := { f.realm with events } }

/-! The boots of a history. -/

section Ledger

variable {f : Frame} {b : Bridge} {p : Opening} {h : List Happening}

theorem leave_boot (f : Frame) (i : Nat) (left : Option Task) : (f.leave i left).boot? = f.boot? := by
  simp only [boot?, leave_bridge]

/-- The turn of a task moves its boot, if it has one, from flight to the ended ones or not at all. -/
theorem turn_boots (ho : f.Orderly) (hb : f.bridge = some b) {i : Nat} {t : Task}
    (hi : f.tasks[i]? = some t) (hl : f.locked = t.holds)
    (hw : ∀ n waited, t ≠ .watching n waited) :
    (f.turn i).boot?.toList ++ (f.endsIn (.turn i)).map Ended.boot = (f.bootOf? t).toList := by
  have hends := pollTask_ends ho hb (List.mem_of_getElem? hi) hl hw
  rw [turn_of_some hi, leave_boot]
  simp only [endsIn, hi, Option.bind_some]
  cases hr : f.ending? t with
  | none =>
    rw [hends.waits hr]
    cases f.bootOf? t <;> rfl
  | some r =>
    rw [(hends.ended r hr).2.1]
    cases f.bootOf? t <;> rfl

theorem idle_boots (hb : f.bridge = some b) {i : Nat} {t : Task} (hi : f.tasks[i]? = some t)
    (h : f.Idle t) :
    (f.turn i).boot?.toList ++ (f.endsIn (.turn i)).map Ended.boot = f.boot?.toList := by
  rw [turn_of_some hi, leave_boot, h.hears.boot? hb]
  cases hx : f.bootOf? t <;> simp [endsIn, hi, h.ending?, hx]

theorem next_boots_of_idle (ho : f.Orderly) {x : Happening} (hs : f.started? x = none) :
    (f.next x).boot?.toList ++ (f.endsIn x).map Ended.boot = f.boot?.toList := by
  cases hb : f.bridge with
  | none =>
    have hn : f.boot? = none := by simp only [boot?, hb, Option.bind_none]
    have hx : (f.next x).boot? = none := by
      cases hx : (f.next x).bridge with
      | none => simp only [boot?, hx, Option.bind_none]
      | some b =>
        obtain ⟨o, hnew⟩ := (next_advances ho x).installed hb b hx
        rw [boot?_of_some hx, hnew]
        rfl
    have he : f.endsIn x = [] := by
      cases x with
      | turn i => simp [endsIn, (ho.bare hb).1]
      | _ => rfl
    rw [hn, hx, he]
    rfl
  | some b =>
    have hother : (∀ i, x ≠ .turn i) → f.endsIn x = [] →
        (f.next x).boot?.toList ++ (f.endsIn x).map Ended.boot = f.boot?.toList := fun hx he => by
      rw [(next_hears ho hb hx).boot? hb, he, List.map_nil, List.append_nil]
    cases x with
    | turn i =>
      cases hi : f.tasks[i]? with
      | none =>
        simp only [next, turn_of_none hi, endsIn, hi, Option.bind_none, Option.toList_none,
          List.map_nil, List.append_nil]
      | some t =>
        rcases ho.idle_or_polled (List.mem_of_getElem? hi) with hidle | ⟨hl, hw⟩
        · exact idle_boots hb hi hidle
        · rw [next, turn_boots ho hb hi hl hw]
          cases t with
          | watching n waited => exact absurd rfl (hw n waited)
          | command c w =>
            have hl' : f.locked = false := hl
            simp [started?, hl', hi, Task.command?] at hs
          | loading | running => rfl
    | _ => exact hother (by simp) rfl

/-- What is known of the boots of a history. -/
structure Ledger (p : Opening) (h : List Happening) : Prop where
  accounted : ((after p h).boot?.toList ++ (ends p h).map Ended.boot).map Prod.snd =
    (boots p h).map Accepted.config
  numbered : ((after p h).boot?.toList ++ (ends p h).map Ended.boot).map Prod.fst =
    (List.range (boots p h).length).reverse
  opened : ∀ b, (after p h).bridge = some b → b.session.channels.length = (boots p h).length

theorem ledger_step (x : Happening) :
    (after p (x :: h)).boot?.toList ++ (ends p (x :: h)).map Ended.boot =
      ((after p h).next x).boot?.toList ++ ((after p h).endsIn x).map Ended.boot ++
        (ends p h).map Ended.boot := by
  simp [after_cons, ends]

theorem ledger_started (hk : Ledger p h) (hb : (after p h).bridge = some b)
    (hl : (after p h).locked = false) {i : Nat} {g : Geometry} {c : Host.Command} {w : Binary64}
    (hi : (queue p h)[i]? = some (g, .command c w)) : Ledger p (.turn i :: h) := by
  have ho := after_orderly p h
  have hfree := ho.grounded hl b hb
  have hnone : (after p h).boot? = none := by
    rw [boot?_of_some hb, Session.boot?_eq_none]
    exact hfree
  have ht : (after p h).tasks[i]? = some (.command c w) := by
    rw [← queue_tasks, List.getElem?_map, hi]
    rfl
  have hstep := ledger_step (p := p) (h := h) (.turn i)
  have hturn := turn_boots ho hb ht hl nofun
  have hboot : (after p h).bootOf? (.command c w) =
      (b.session.attempt? w c).map fun a => (a.channel, a.config) := by
    simp only [bootOf?, hb, Option.bind_some]
    exact Session.command_boot hfree w c
  rw [next, hturn, hboot] at hstep
  have hacc := hk.accounted
  have hnum := hk.numbered
  have hopen := hk.opened b hb
  rw [hnone, Option.toList_none, List.nil_append] at hacc hnum
  have hboots : boots p (.turn i :: h) =
      ((b.session.attempt? w c).map fun a => ⟨g, c, a.request, a.config⟩).toList ++ boots p h := by
    simp only [boots, accepted?, hl, hb, hi]
  refine ⟨?_, ?_, ?_⟩
  · rw [hstep, List.map_append, hacc, hboots, List.map_append]
    cases b.session.attempt? w c <;> rfl
  · rw [hstep, List.map_append, hnum, hboots]
    cases ha : b.session.attempt? w c with
    | none => rfl
    | some a =>
      obtain ⟨-, -, hch, -⟩ := Session.attempt?_eq_some ha
      simp [List.range_succ, hch, hopen]
  · intro b' hb'
    obtain ⟨es, hes, hp⟩ := startCommand_polled ho.tidy hb hfree (ho.shown b hb) c w
    obtain ⟨d, d', hd, hd', hr⟩ := hp.session
    obtain rfl := Option.some.inj (hb.symm.trans hd)
    have hbridge : (after p (.turn i :: h)).bridge = ((after p h).startCommand c w).2.bridge := by
      rw [after_cons, next, turn_of_some ht, leave_bridge]
      simp only [pollTask, hl, Bool.false_eq_true, if_false]
    obtain rfl := Option.some.inj (hd'.symm.trans (hbridge.symm.trans hb'))
    rw [hr.head.opened hes, hboots]
    show (b.session.command w c).session.channels.length = _
    rw [Session.command_opened hfree, hopen]
    cases b.session.attempt? w c with
    | none => rfl
    | some a => simp [Nat.add_comm]

theorem ledger (p : Opening) (h : List Happening) : Ledger p h := by
  induction h with
  | nil => exact ⟨rfl, rfl, fun b hb => by cases hb⟩
  | cons x h ih =>
    have ho := after_orderly p h
    have ha := next_advances ho x
    have hquiet : (after p h).started? x = none → Ledger p (x :: h) := fun hs => by
      have hn := accepted?_of_idle (queue_tasks p h) hs
      have hstep := ledger_step (p := p) (h := h) x
      rw [next_boots_of_idle ho hs] at hstep
      refine ⟨?_, ?_, fun b hb => ?_⟩
      · rw [hstep, boots, hn]
        exact ih.accounted
      · rw [hstep, boots, hn]
        exact ih.numbered
      · rw [boots, hn]
        cases hc : (after p h).bridge with
        | none =>
          obtain ⟨o, hnew⟩ := ha.installed hc b hb
          rw [boots_of_bare hc, hnew]
          rfl
        | some c =>
          obtain ⟨b', es, hb', hr, -, hcs⟩ := ha.led c hc
          obtain rfl := Option.some.inj (hb'.symm.trans hb)
          rw [hs] at hcs
          exact (hr.opened (List.filterMap_eq_nil_iff.mp hcs)).trans (ih.opened c hc)
    cases hs : (after p h).started? x with
    | none => exact hquiet hs
    | some y =>
      cases x with
      | turn i =>
        simp only [started?] at hs
        split at hs
        · cases hs
        · next hl =>
          obtain ⟨t, ht, hty⟩ := Option.bind_eq_some_iff.mp hs
          obtain ⟨b, hb⟩ := ho.bridge_of_mem (List.mem_of_getElem? ht)
          rw [← queue_tasks, List.getElem?_map] at ht
          obtain ⟨⟨g, t'⟩, hi, rfl⟩ := Option.map_eq_some_iff.mp ht
          cases t' with
          | command c w => exact ledger_started ih hb (by simpa using hl) hi
          | _ => cases hty
      | _ => cases hs

end Ledger

/-! Frames in which somebody acts. -/

section Scenes

variable {f : Frame} {p : Opening} {h : List Happening} {cs : List ExitCall}

theorem exitChannel?_of_bare (hc : f.realm.closures = []) (guest : Option Nat) :
    f.exitChannel? guest = none := by
  rcases callExit_cases f guest .undefined with ⟨closure, n, -, hx, -⟩ | ⟨hn, -⟩
  · simp [Realm.handler?, hc] at hx
  · exact hn

theorem exitCall?_of_bare (hc : f.realm.closures = []) (self : Option Nat) (a : Action) :
    exitCall? self f a = none := by
  cases a with
  | exit guest v => simp only [exitCall?, exitChannel?_of_bare hc, Option.map_none]
  | _ => rfl

theorem Scene.sound (hs : Scene p cs f) :
    f.Tidy none ∧ Attentive cs f ∧ (f.bridge = none → f.realm.closures = []) := by
  induction hs with
  | between h =>
    have ho := after_orderly p h
    exact ⟨ho.tidy, after_attentive p h, fun hb => (ho.bare hb).2.2⟩
  | @entered h n url b ht hb arguments =>
    have ho := after_orderly p h
    have hst := Serves.stage hb (ho.served _ ht rfl)
    have hh := (brought_hears hb hst url).trans (record_hears _ (.runGuest arguments))
    have ha := hh.attentive ((after_attentive p h).attends b hb) hb
    rw [List.append_nil, List.append_nil] at ha
    refine ⟨(record_goes (brought_tidy ho.tidy hb hst url) _).tidy, ha, nofun⟩
  | @acted cs f hs self a ih =>
    obtain ⟨ht, ha, hbare⟩ := ih
    have hg := act_goes ht self a
    have hh := act_hears ht self a
    refine ⟨hg.tidy, ?_, ?_⟩
    · cases hb : f.bridge with
      | some b => exact hh.attentive (ha.attends b hb) hb
      | none =>
        have hn := hg.drifts.bridge
        rw [hb] at hn
        rw [ha.bare hb, exitCall?_of_bare (hbare hb)]
        refine ⟨fun _ => rfl, fun b hb' => ?_⟩
        rw [hb'] at hn
        cases hn
    · intro hb
      rw [hh.closures]
      refine hbare ?_
      cases hb' : f.bridge with
      | none => rfl
      | some b =>
        obtain ⟨c, hc, -⟩ := hg.drifts.bridge_of_some hb'
        exact absurd (hc.symm.trans hb) (Option.some_ne_none c)

theorem Scene.acts (hs : Scene p cs f) (self : Option Nat) (as : List Action) :
    Scene p (cs ++ exitCalls self f as) (actAll self f as).2 := by
  rw [actAll_snd]
  induction as generalizing f cs with
  | nil =>
    rw [exitCalls, List.append_nil]
    exact hs
  | cons a as ih =>
    rw [exitCalls, ← List.append_assoc]
    exact ih (hs.acted self a)

theorem Scene.callable (hs : Scene p cs f) {n : Nat} {c : Boot.Config}
    (hboot : f.boot? = some (n, c)) : ∃ guest, f.exitChannel? (some guest) = some n := by
  obtain ⟨b, hb, hx⟩ := Option.bind_eq_some_iff.mp hboot
  obtain ⟨k, -, hk, hm⟩ := (hs.sound.2.1.attends b hb).held n c hx
  obtain ⟨g, hg, hgk⟩ := List.mem_map.mp hm
  obtain ⟨i, hi⟩ := List.getElem?_of_mem hg
  exact ⟨i, by simp [exitChannel?, hi, hgk, hk, Handler.channel?]⟩

theorem signal_deaf {s : Session} {n : Nat} (hn : (s.channel n).armed = false) (code : Int32) :
    s.signal n code = (false, s) := by
  have hc : (s.channel n).signal code = (false, s.channel n) := by
    simp only [Exit.Channel.signal, hn, Bool.false_eq_true, if_false]
  have hset : s.setChannel n (s.channel n) = s := by
    simp only [Session.setChannel, Session.channel]
    cases hx : s.channels[n]? with
    | none =>
      have hle : s.channels.length ≤ n := List.getElem?_eq_none_iff.mp hx
      rw [List.set_eq_of_length_le hle]
    | some c =>
      obtain ⟨hlt, rfl⟩ := List.getElem?_eq_some_iff.mp hx
      rw [Option.getD_some, List.set_getElem_self]
  show (((s.channel n).signal code).1, s.setChannel n ((s.channel n).signal code).2) = _
  rw [hc, hset]

theorem Informed.deaf {s : Session} (h : Informed cs s) {n : Nat}
    (hn : passed cs n ≠ [] ∨ s.boot?.map Prod.fst ≠ some n) : (s.channel n).armed = false := by
  by_cases hw : s.Awaited n
  · obtain ⟨c, hboot⟩ := Session.awaited_iff_boot.mp hw
    obtain ⟨-, hd⟩ := h.told n c hboot
    have hne : passed cs n ≠ [] := hn.resolve_right (by simp [hboot])
    obtain ⟨v, vs, hv⟩ := List.exists_cons_of_ne_nil hne
    simp [Exit.Channel.armed, hd, hv]
  · simp [Exit.Channel.armed, h.unwaited n hw]

theorem Scene.inert (hs : Scene p cs f) {guest : Option Nat} {n : Nat} (v : Value)
    (hx : f.exitChannel? guest = some n)
    (hn : passed cs n ≠ [] ∨ f.boot?.map Prod.fst ≠ some n) :
    (f.callExit guest v).1 = .ok ∧
      ∃ events, (f.callExit guest v).2 = { f with realm := { f.realm with events } } := by
  obtain ⟨-, ha, hbare⟩ := hs.sound
  rcases callExit_cases f guest v with ⟨closure, m, hm, -, he⟩ | ⟨hm, -⟩
  · obtain rfl := Option.some.inj (hm.symm.trans hx)
    obtain ⟨b, hb⟩ : ∃ b, f.bridge = some b := by
      cases hb : f.bridge with
      | some b => exact ⟨b, rfl⟩
      | none =>
        rw [exitChannel?_of_bare (hbare hb)] at hx
        cases hx
    rw [boot?_of_some hb] at hn
    have hdeaf := signal_deaf ((ha.attends b hb).informed.deaf hn) (exitCode v)
    obtain ⟨events, hev⟩ := f.realm.report_eq (.exitedAgain (exitCode v))
    rw [he]
    refine ⟨rfl, events, ?_⟩
    simp only [signalExit, hb, hdeaf, Bool.false_eq_true, if_false, report, hev]
  · rw [hm] at hx
    cases hx

end Scenes

section Law

variable {p : Opening} {h : List Happening}

theorem passed_later {x : Happening} {n : Nat} {v : Value} {vs : List Value}
    (hp : passed (calls p h) n = v :: vs) :
    ∃ ws, passed (calls p (x :: h)) n = v :: ws := by
  rw [calls, passed_append, hp]
  exact ⟨_, rfl⟩

theorem turn_verdict {i : Nat} {x : Ended} (hx : x ∈ (after p h).endsIn (.turn i)) :
    (∃ e, x.result = .error (.guest e)) ∨
      ∃ v vs, passed (calls p (.turn i :: h)) x.boot.1 = v :: vs ∧
        x.result = .ok (Session.outcomeOf x.boot.2.program (exitCode v)) := by
  have ho := after_orderly p h
  obtain ⟨t, hi, hx⟩ := Option.bind_eq_some_iff.mp (Option.mem_toList.mp hx)
  obtain ⟨boot, hboot, hx⟩ := Option.bind_eq_some_iff.mp hx
  obtain ⟨r, hr, rfl⟩ := Option.map_eq_some_iff.mp hx
  have ht := List.mem_of_getElem? hi
  obtain ⟨b, hb⟩ := ho.bridge_of_mem ht
  rcases ending_verdict ho hb ((after_attentive p h).attends b hb) ht hr with
    he | ⟨hn, -⟩ | ⟨n, c, v, vs, hb', hv, hout⟩
  · exact .inl he
  · rw [hn] at hboot
    cases hboot
  · obtain rfl := Option.some.inj (hboot.symm.trans hb')
    exact .inr ⟨v, vs, by rwa [calls_turn hi], hout⟩

theorem ends_verdict : ∀ x ∈ ends p h, (∃ e, x.result = .error (.guest e)) ∨
    ∃ v vs, passed (calls p h) x.boot.1 = v :: vs ∧
      x.result = .ok (Session.outcomeOf x.boot.2.program (exitCode v)) := by
  induction h with
  | nil => simp [ends]
  | cons y h ih =>
    intro x hx
    rcases List.mem_append.mp hx with hx | hx
    · cases y with
      | turn i => exact turn_verdict hx
      | _ => cases hx
    · rcases ih x hx with he | ⟨v, vs, hp, hr⟩
      · exact .inl he
      · obtain ⟨ws, hws⟩ := passed_later (x := y) hp
        exact .inr ⟨v, ws, hws, hr⟩

theorem ending_undropped {t : Task} (ht : t ∈ (after p h).tasks) :
    (after p h).ending? t ≠ some (.error .exitHookDropped) := by
  intro hr
  have ho := after_orderly p h
  obtain ⟨b, hb⟩ := ho.bridge_of_mem ht
  rcases ending_verdict ho hb ((after_attentive p h).attends b hb) ht hr with
    ⟨e, he⟩ | ⟨-, hn⟩ | ⟨n, c, v, vs, -, -, hout⟩
  · cases he
  · exact hn rfl
  · cases hout

theorem ending_reported {i : Nat} {t : Task} {r : Except BootError Outcome}
    (hi : (after p h).tasks[i]? = some t) (hr : (after p h).ending? t = some r) :
    ∃ g, after p (.turn i :: h) = (Frame.finish g r).leave i none := by
  have ho := after_orderly p h
  have ht := List.mem_of_getElem? hi
  obtain ⟨b, hb⟩ := ho.bridge_of_mem ht
  obtain ⟨hl, hw⟩ := ho.polled_of_ending ht hr
  obtain ⟨hleft, -, g, hg⟩ := (pollTask_ends ho hb ht hl hw).ended r hr
  exact ⟨g, by rw [after_cons, next, turn_of_some hi, hleft, hg]⟩

theorem ending_waits {i : Nat} {t : Task} {n : Nat} {c : Boot.Config}
    (hi : (after p h).tasks[i]? = some t) (hh : t.holds = true)
    (hboot : (after p h).boot? = some (n, c)) (hr : (after p h).ending? t = none) :
    (after p h).Loads t ∨ passed (calls p (.turn i :: h)) n = [] := by
  have ho := after_orderly p h
  have ht := List.mem_of_getElem? hi
  obtain ⟨b, hb⟩ := ho.bridge_of_mem ht
  rcases poll_verdict ho hb ((after_attentive p h).attends b hb) ht hh hboot with
    ⟨e, he⟩ | ⟨hloads, -⟩ | he
  · cases hr.symm.trans he
  · exact .inl hloads
  · refine .inr ?_
    have hn : exitResult c (passed (calls p h ++ (after p h).pollCalls t) n) = none :=
      he.symm.trans hr
    rwa [exitResult, Option.map_eq_none_iff, List.head?_eq_none_iff, ← calls_turn hi] at hn

theorem run_law (p : Opening) (h : List Happening) : RunLaw p h where
  accounted := (ledger p h).accounted
  numbered := (ledger p h).numbered
  verdict := ends_verdict
  undropped _ ht := ending_undropped ht
  reported _ _ _ hi hr := ending_reported hi hr
  waits _ _ _ _ hi hh hboot hr := ending_waits hi hh hboot hr
  acting n _ _ ht hb arguments as := (Scene.entered ht hb arguments).acts (some n) as
  callable _ _ hs _ _ hboot := hs.callable hboot
  inert _ _ hs _ _ v hx hn := hs.inert v hx hn

end Law

def Sample.unloaded : Opening :=
  { Sample.framed with scripts := [{ GuestScript.plain with load := .pending }] }

def Sample.hasty : List Happening :=
  [.act (.exit none (.number (.ofInt 0))), .turn 0, .act (.message Sample.pong),
    .listen .undefined]

theorem turn_loading {f : Frame} {n : Nat} {url : String} (ht : f.tasks = [.loading n url])
    (hl : f.loadOf n = .pending) (i : Nat) : f.turn i = f := by
  cases i with
  | zero =>
    have hp : f.pollTask (.loading n url) = (false, some (.loading n url), f) := by
      simp only [pollTask, hl]
    have hi : f.tasks[0]? = some (.loading n url) := by simp [ht]
    have hset : f.tasks.set 0 (.loading n url) = f.tasks := by rw [ht]; rfl
    rw [turn_of_some hi, hp]
    simp only [leave, hset]
  | succ i => exact turn_of_none (by simp [ht])

/-- An exit call is not enough for a boot to complete: its module must be loaded, or have failed
to. -/
theorem exit_call_unheeded :
    ¬ ∀ p h n c, (after p h).boot? = some (n, c) → passed (calls p h) n ≠ [] →
      ∃ is : List Nat, (is.foldl turn (after p h)).boot? = none := by
  intro hn
  have ht : (after Sample.unloaded Sample.hasty).tasks = [.loading 0 "chip8.wasm"] := rfl
  have hl : (after Sample.unloaded Sample.hasty).loadOf 0 = .pending := rfl
  have hstill : ∀ is : List Nat, is.foldl turn (after Sample.unloaded Sample.hasty) =
      after Sample.unloaded Sample.hasty := fun is => by
    induction is with
    | nil => rfl
    | cons i is ih => rw [List.foldl_cons, turn_loading ht hl, ih]
  have hboot : (after Sample.unloaded Sample.hasty).boot? = some (0, Sample.boot.config) := rfl
  have hcalls : passed (calls Sample.unloaded Sample.hasty) 0 = [.number (.ofInt 0)] := rfl
  obtain ⟨is, hx⟩ := hn Sample.unloaded Sample.hasty 0 Sample.boot.config hboot (by simp [hcalls])
  rw [hstill, hboot] at hx
  cases hx

end Frame

end Chip8Frame.Browser
