import Chip8Frame.Proofs.Attentive
import Chip8Frame.Proofs.Renewal

/-! How a poll ends a boot. A boot is polled through its task, and what it answers is the result of
the command that began it. It fails with its guest, it waits for its module, or it looks at its exit
and has the result that the first value decides which its exit function was passed. No poll finds
that the exit hook is lost. -/

namespace Chip8Frame.Host.Session

/-- The result of a run by the values that its exit function was passed. -/
def exitResult (c : Boot.Config) (vs : List Browser.Value) : Option (Except BootError Outcome) :=
  vs.head?.map fun v => .ok (outcomeOf c.program (Browser.Frame.exitCode v))

section Steps

variable {s u : Session} {e : Event} {t : Turn}

theorem Step.command_keeps_hook {w : Binary64} {c : Command} (hs : Step s (.command w c) t)
    (hr : t.progress.result? = some (.error .exitHookDropped)) : False := by
  cases hs with
  | waiting hl | hookLost hl | exited hl => exact hl.not_command
  | _ => cases hr

theorem Looks.next_of_delivered {f : Flight} {code : Int32} (hl : s.Looks e f)
    (hd : (s.channel f.channel).delivered = some code) :
    s.next e =
      ⟨s.landed f (s.context.exited f.run f.config code).1,
        (s.context.exited f.run f.config code).2.1,
        .done (.ok (s.context.exited f.run f.config code).2.2)⟩ := by
  rw [hl.next_eq, poll_running]
  simp only [Exit.Channel.poll, hd]

theorem look_result {cs : List Browser.ExitCall} (hi : Browser.Frame.Informed cs s) {f : Flight}
    (hl : s.Looks e f) (hk : 0 < (s.channel f.channel).hooks) :
    (s.next e).progress.result? = exitResult f.config (Browser.passed cs f.channel) := by
  obtain ⟨-, hd⟩ := hi.told f.channel f.config (boot?_eq_some.mpr ⟨f, hl.1, rfl, rfl⟩)
  unfold exitResult
  cases hv : (Browser.passed cs f.channel).head? with
  | none =>
    rw [hv] at hd
    rw [hl.next_eq, poll_running]
    simp [Exit.Channel.poll, hd, Nat.ne_of_gt hk, Progress.result?]
  | some v =>
    rw [hv] at hd
    rw [hl.next_of_delivered hd]
    simp [Progress.result?, exited_outcome]

end Steps

end Chip8Frame.Host.Session

namespace Chip8Frame.Browser

open Host (Session Turn BootError Outcome)
open Host.Session (Step next_step exitResult)

namespace Frame

def boot? (f : Frame) : Option (Nat × Boot.Config) := f.bridge.bind fun b => b.session.boot?

def answer? (f : Frame) (turn : Session → Turn) : Option (Except BootError Outcome) :=
  f.bridge.bind fun b => (turn b.session).progress.result?

/-- How a boot ends in its launch, if it does. -/
def boarding? (f : Frame) (l : Host.Launch) : Option (Except BootError Outcome) :=
  match f.launchGuest l with
  | (.ok _, _) => none
  | (.error e, g) => g.answer? (·.launched (.error e))

/-- How a command or its boot ends when the task is polled, if it does. -/
def ending? (f : Frame) : Task → Option (Except BootError Outcome)
  | .command c w =>
      if f.locked then none
      else f.bridge.bind fun b =>
        match (b.session.command w c).progress with
        | .launch l => ({ f with locked := true }.take b (b.session.command w c)).boarding? l
        | progress => progress.result?
  | .loading n url =>
      match f.loadOf n with
      | .pending => none
      | .rejected v => f.answer? (·.launched (.error (.fetch url v.describe)))
      | .resolved =>
          match readInstance (f.scriptOf (.guest n)) with
          | .error v => f.answer? (·.launched (.error (.instantiate v.describe)))
          | .ok () => f.bridge.bind fun b =>
              ((f.brought b url).runGuest n).2.answer?
                (·.started ((f.brought b url).runGuest n).1)
  | .running => f.answer? Session.poll
  | .watching _ _ => none

def bootOf? (f : Frame) : Task → Option (Nat × Boot.Config)
  | .command c w => f.bridge.bind fun b => (b.session.command w c).session.boot?
  | _ => f.boot?

def Loads (f : Frame) (t : Task) : Prop := ∃ n url, t = .loading n url ∧ f.loadOf n = .pending

/-- The guest of a boot is instantiated and started, by the poll of its task at the latest. -/
inductive Starts (f : Frame) : Task → Prop where
  | running : Starts f .running
  | loaded {n : Nat} {url : String} {b : Bridge} (hl : f.loadOf n = .resolved)
      (hr : readInstance (f.scriptOf (.guest n)) = .ok ()) (hb : f.bridge = some b)
      (hs : ((f.brought b url).runGuest n).1 = .ok ()) : Starts f (.loading n url)

/-- A poll that looks at the exit of its boot: the frame and the turn in which it does so. -/
structure Looked (cs : List ExitCall) (f : Frame) (t : Task) (g : Frame) (turn : Session → Turn) :
    Prop where
  polled : (f.pollTask t).2 = g.respond turn
  answered : f.ending? t = g.answer? turn
  boot : g.boot? = f.boot?
  tidy : g.Tidy none
  looks : ∃ d e fl, g.bridge = some d ∧ Attends (cs ++ f.pollCalls t) g d ∧ d.session.Looks e fl ∧
    ∀ s, turn s = s.next e

section Polls

variable {f g : Frame} {b : Bridge} {cs : List ExitCall}

/-- A poll with its result: it ends the boot, or leaves it in flight. -/
structure Ends (boot : Option (Nat × Boot.Config)) (result : Option (Except BootError Outcome))
    (left : Option Task) (g : Frame) : Prop where
  ended : ∀ r, result = some r → left = none ∧ g.boot? = none ∧ ∃ k, g = Frame.finish k r
  waits : result = none → g.boot? = boot

theorem finish_bridge (f : Frame) (r : Except BootError Outcome) :
    (f.finish r).bridge = f.bridge := by
  obtain ⟨realm, -, he⟩ := finish_eq f r
  rw [he]

theorem finish_boot (f : Frame) (r : Except BootError Outcome) : (f.finish r).boot? = f.boot? := by
  simp only [boot?, finish_bridge]

theorem conclude_ends {e : Session.Event} {t : Turn} (hs : Step b.session e t)
    (hl : e.leads = true) (hn : e ≠ .launched (.ok ())) (hc : ∀ l, t.progress ≠ .launch l)
    (f : Frame) : Ends b.session.boot? t.progress.result? (f.conclude b t).1 (f.conclude b t).2 := by
  simp only [conclude]
  rcases hs.launch_or_done hl hn with ⟨l, hp⟩ | ⟨result, hp⟩ | hp
  · exact absurd hp (hc l)
  · simp only [hp]
    refine ⟨fun r hr => ?_, by simp [Host.Progress.result?]⟩
    obtain rfl := Option.some.inj hr
    refine ⟨rfl, ?_, _, rfl⟩
    rw [finish_boot]
    exact Session.boot?_eq_none.mpr (hs.landed_of_done hp)
  · simp only [hp]
    refine ⟨by simp [Host.Progress.result?], fun _ => ?_⟩
    obtain ⟨-, fl, hf, -, hf'⟩ := hs.running_of_pending hl hp
    show t.session.boot? = _
    simp [Session.boot?, hf, hf']

theorem respond_ends (hb : f.bridge = some b) {e : Session.Event} (he : b.session.Enabled e)
    (hl : e.leads = true) (hn : e ≠ .launched (.ok ())) (hc : e.command? = none)
    {turn : Session → Turn} (ht : ∀ s, turn s = s.next e) :
    Ends f.boot? (f.answer? turn) (f.respond turn).1 (f.respond turn).2 := by
  have hs := next_step he
  have hr : f.respond turn = f.conclude b (b.session.next e) := by simp only [respond, hb, ht]
  have ha : f.answer? turn = (b.session.next e).progress.result? := by
    simp only [answer?, hb, ht, Option.bind_some]
  have hboot : f.boot? = b.session.boot? := by simp only [boot?, hb, Option.bind_some]
  rw [hr, ha, hboot]
  exact conclude_ends hs hl hn (hs.no_launch hc) f

theorem boot?_of_some (hb : f.bridge = some b) : f.boot? = b.session.boot? := by
  simp only [boot?, hb, Option.bind_some]

theorem Hears.boot? (h : Hears cs f g) (hb : f.bridge = some b) : g.boot? = f.boot? := by
  obtain ⟨b', hb', hh⟩ := h.bridge b hb
  rw [boot?_of_some hb, boot?_of_some hb', hh.boot]

theorem board_ends {l : Host.Launch} (ht : f.Tidy (some l.channel)) (hb : f.bridge = some b)
    (hst : b.session.stage = some .launching) :
    Ends f.boot? (f.boarding? l) (f.board l).1 (f.board l).2 := by
  obtain ⟨scripts, guests, hg, -⟩ := launchGuest_goes ht
  unfold board boarding?
  rcases hx : f.launchGuest l with ⟨made, g⟩
  rw [hx] at hg
  obtain ⟨d, hd, hdrift⟩ := hg.drifts.bridge_of_some (f := { f with scripts, guests }) hb
  have hd' : g.bridge = some d := hd
  have hboot : g.boot? = f.boot? := by
    rw [boot?_of_some hb, boot?_of_some hd', Session.boot?, Session.boot?, hdrift.flight]
  cases made with
  | ok n => exact ⟨by simp, fun _ => hboot⟩
  | error e =>
    have hst' : d.session.Enabled (.launched (.error e)) := by
      show d.session.stage = _
      rw [Session.stage, hdrift.flight]
      exact hst
    rw [← hboot]
    exact respond_ends hd' hst' rfl (by simp) rfl fun _ => rfl

theorem ending?_of_launch (hb : f.bridge = some b) (hl : f.locked = false) {c : Host.Command}
    {w : Binary64} {l : Host.Launch} (hp : (b.session.command w c).progress = .launch l) :
    f.ending? (.command c w) =
      ({ f with locked := true }.take b (b.session.command w c)).boarding? l := by
  simp only [ending?, hl, hb, hp, Option.bind_some, Bool.false_eq_true, if_false]

theorem ending?_of_done (hb : f.bridge = some b) (hl : f.locked = false) {c : Host.Command}
    {w : Binary64} (hp : ∀ l, (b.session.command w c).progress ≠ .launch l) :
    f.ending? (.command c w) = (b.session.command w c).progress.result? := by
  simp only [ending?, hl, hb, Option.bind_some, Bool.false_eq_true, if_false]

theorem command_ends (ho : f.Orderly) (hb : f.bridge = some b) (hl : f.locked = false)
    (c : Host.Command) (w : Binary64) :
    Ends (f.bootOf? (.command c w)) (f.ending? (.command c w)) (f.startCommand c w).1
      (f.startCommand c w).2 := by
  have hfree := ho.grounded hl b hb
  have hs := Session.command_step hfree w c
  have ht' : Tidy none { f with locked := true } := ⟨ho.tidy.fresh, ho.tidy.nodup, ho.tidy.hooks⟩
  by_cases hc : ∃ l, (b.session.command w c).progress = .launch l
  · obtain ⟨l, hp⟩ := hc
    obtain ⟨fl, hfl, hst, -⟩ := hs.launching_of_launch hp
    have hm := take_tidy ht' hb hs rfl
    rw [hp] at hm
    have hends := board_ends hm rfl (Session.stage_eq_some.mpr ⟨fl, hfl, hst⟩)
    rw [startCommand_of_launch hb hp, ending?_of_launch hb hl hp]
    simp only [bootOf?, hb, Option.bind_some]
    exact hends
  · have hp : ∀ l, (b.session.command w c).progress ≠ .launch l := fun l hl => hc ⟨l, hl⟩
    have hends := conclude_ends hs rfl (by simp) hp { f with locked := true }
    have hnone : b.session.boot? = none := Session.boot?_eq_none.mpr hfree
    have hover : (b.session.command w c).session.boot? = none :=
      (hs.over_or_same rfl hp).elim id fun hsame => hsame.2.trans hnone
    rw [startCommand_of_done hb hp, ending?_of_done hb hl hp]
    simp only [bootOf?, hb, Option.bind_some, hover]
    rwa [hnone] at hends

theorem pollTask_ends (ho : f.Orderly) (hb : f.bridge = some b) {t : Task} (ht : t ∈ f.tasks)
    (hl : f.locked = t.holds) (hw : ∀ n waited, t ≠ .watching n waited) :
    Ends (f.bootOf? t) (f.ending? t) (f.pollTask t).2.1 (f.pollTask t).2.2 := by
  cases t with
  | watching n waited => exact absurd rfl (hw n waited)
  | command c w =>
    have hl' : f.locked = false := hl
    simp only [pollTask, hl', Bool.false_eq_true, if_false]
    exact command_ends ho hb hl' c w
  | loading n url =>
    have hst := Serves.stage hb (ho.served _ ht rfl)
    have hfail : ∀ e, Ends f.boot? (f.answer? (·.launched (.error e)))
        (f.respond (·.launched (.error e))).1 (f.respond (·.launched (.error e))).2 := fun e =>
      respond_ends hb (e := .launched (.error e)) hst rfl (by simp) rfl fun _ => rfl
    simp only [pollTask, ending?, bootOf?]
    cases f.loadOf n with
    | pending => exact ⟨by simp, fun _ => rfl⟩
    | rejected v => exact hfail _
    | resolved =>
      cases hread : readInstance (f.scriptOf (.guest n)) with
      | error v =>
        simp only [bringUp, hread]
        exact hfail _
      | ok u =>
        obtain ⟨d, hd, he, -, hh⟩ := brought_run ho.tidy hb hst n url
        simp only [hb, Option.bind_some, bringUp_of_read hb hread]
        rw [← hh.boot? hb]
        exact respond_ends hd he rfl (by simp) rfl fun _ => rfl
  | running =>
    obtain ⟨b', fl, hb', hf, hst⟩ := ho.served _ ht rfl
    obtain rfl := Option.some.inj (hb.symm.trans hb')
    have he : b.session.Enabled .poll := Session.stage_eq_some.mpr ⟨fl, hf, hst⟩
    rw [pollTask_running]
    exact respond_ends hb he rfl (by simp) rfl fun _ => rfl

end Polls

/-! What the result of a poll is. -/

section Verdicts

variable {f g : Frame} {b : Bridge} {cs : List ExitCall} {n : Nat} {c : Boot.Config} {t : Task}

theorem answer_launchFailed (hb : f.bridge = some b) (hst : b.session.stage = some .launching)
    (e : Host.GuestError) :
    f.answer? (·.launched (.error e)) = some (.error (.guest e)) := by
  obtain ⟨fl, hf, hs⟩ := Session.stage_eq_some.mp hst
  simp [answer?, hb, Session.launched, hf, hs, Host.Progress.result?]

theorem answer_startFailed (hb : f.bridge = some b) (hst : b.session.stage = some .starting)
    (e : Host.GuestError) :
    f.answer? (·.started (.error e)) = some (.error (.guest e)) := by
  obtain ⟨fl, hf, hs⟩ := Session.stage_eq_some.mp hst
  simp [answer?, hb, Session.started, hf, hs, Host.Progress.result?]

theorem Attends.hook {l : Option Nat} (h : Attends cs f b) (ht : f.Tidy l)
    (hb : f.bridge = some b) (hboot : b.session.boot? = some (n, c)) :
    0 < (b.session.channel n).hooks := by
  obtain ⟨k, -, hx, -⟩ := h.held n c hboot
  exact ht.hook hb hx

theorem answer_look {l : Option Nat} (h : Attends cs f b) (ht : f.Tidy l)
    (hb : f.bridge = some b) (hboot : f.boot? = some (n, c)) {e : Session.Event} {fl : Host.Flight}
    (hl : b.session.Looks e fl) {turn : Session → Turn} (hturn : ∀ s, turn s = s.next e) :
    f.answer? turn = exitResult c (passed cs n) := by
  have hb' := boot?_of_some hb
  obtain ⟨fl', hf, rfl, rfl⟩ := Session.boot?_eq_some.mp (hb'.symm.trans hboot)
  obtain rfl := Option.some.inj (hl.1.symm.trans hf)
  simp only [answer?, hb, Option.bind_some, hturn]
  exact Session.look_result h.informed hl (h.hook ht hb (hb'.symm.trans hboot))

theorem Starts.looked (hs : f.Starts t) (ho : f.Orderly) (hb : f.bridge = some b)
    (h : Attends cs f b) (ht : t ∈ f.tasks) : ∃ g turn, Looked cs f t g turn := by
  cases hs with
  | running =>
    obtain ⟨b', fl, hb', hf, hst⟩ := ho.served _ ht rfl
    obtain rfl := Option.some.inj (hb.symm.trans hb')
    refine ⟨f, Session.poll, by rw [pollTask_running], rfl, rfl, ho.tidy, b, .poll, fl, hb, ?_,
      ⟨hf, .inl ⟨rfl, hst⟩⟩, fun _ => rfl⟩
    simpa only [pollCalls, List.append_nil] using h
  | @loaded k url d hload hread hd hrun =>
    obtain rfl := Option.some.inj (hb.symm.trans hd)
    have hst := Serves.stage hb (ho.served _ ht rfl)
    obtain ⟨d, hd, he, htidy, hhears⟩ := brought_run ho.tidy hb hst k url
    have hresp := bringUp_of_read hb hread url
    rcases hx : (f.brought b url).runGuest k with ⟨result, g⟩
    rw [hx] at hrun hd he htidy hhears hresp
    cases hrun
    obtain ⟨fl, hf, hstage⟩ := Session.stage_eq_some.mp he
    refine ⟨g, (·.started (.ok ())), ?_, ?_, hhears.boot? hb, htidy, d, .started (.ok ()), fl, hd,
      ?_, ⟨hf, .inr ⟨rfl, hstage⟩⟩, fun _ => rfl⟩
    · simp only [pollTask, hload, hresp]
    · simp only [ending?, hload, hread, hb, Option.bind_some, hx]
    · simp only [pollCalls, hload, hread, hb]
      exact hhears.attends h hb hd

theorem Looked.ending {turn : Session → Turn} (h : Looked cs f t g turn)
    (hboot : f.boot? = some (n, c)) :
    f.ending? t = exitResult c (passed (cs ++ f.pollCalls t) n) := by
  obtain ⟨d, e, fl, hd, ha, hl, hturn⟩ := h.looks
  rw [h.answered]
  exact answer_look ha h.tidy hd (h.boot.trans hboot) hl hturn

/-- A boot that is polled fails with its guest, waits for its module, or has the result that its
exit calls decide. -/
theorem poll_verdict (ho : f.Orderly) (hb : f.bridge = some b) (h : Attends cs f b)
    (ht : t ∈ f.tasks) (hh : t.holds = true) (hboot : f.boot? = some (n, c)) :
    (∃ e, f.ending? t = some (.error (.guest e))) ∨ f.Loads t ∧ f.ending? t = none ∨
      f.ending? t = exitResult c (passed (cs ++ f.pollCalls t) n) := by
  have hstarts : f.Starts t → f.ending? t = exitResult c (passed (cs ++ f.pollCalls t) n) := by
    intro hs
    obtain ⟨g, turn, hl⟩ := hs.looked ho hb h ht
    exact hl.ending hboot
  cases t with
  | command | watching => cases hh
  | running => exact .inr (.inr (hstarts .running))
  | loading k url =>
    have hst := Serves.stage hb (ho.served _ ht rfl)
    cases hload : f.loadOf k with
    | pending => exact .inr (.inl ⟨⟨k, url, rfl, hload⟩, by simp only [ending?, hload]⟩)
    | rejected v =>
      simp only [ending?, hload]
      exact .inl ⟨_, answer_launchFailed hb hst _⟩
    | resolved =>
      cases hread : readInstance (f.scriptOf (.guest k)) with
      | error v =>
        simp only [ending?, hload, hread]
        exact .inl ⟨_, answer_launchFailed hb hst _⟩
      | ok u =>
        cases hrun : ((f.brought b url).runGuest k).1 with
        | ok u => exact .inr (.inr (hstarts (.loaded hload hread hb hrun)))
        | error e =>
          obtain ⟨d, hd, he, -, -⟩ := brought_run ho.tidy hb hst k url
          simp only [ending?, hload, hread, hb, Option.bind_some, hrun]
          exact .inl ⟨_, answer_startFailed hd he e⟩

theorem boarding_verdict {l : Host.Launch} (ht : f.Tidy (some l.channel)) (hb : f.bridge = some b)
    (hst : b.session.stage = some .launching) {r : Except BootError Outcome}
    (hr : f.boarding? l = some r) : ∃ e, r = .error (.guest e) := by
  obtain ⟨scripts, guests, hg, -⟩ := launchGuest_goes ht
  unfold boarding? at hr
  rcases hx : f.launchGuest l with ⟨made, g⟩
  rw [hx] at hg hr
  obtain ⟨d, hd, hdrift⟩ := hg.drifts.bridge_of_some (f := { f with scripts, guests }) hb
  cases made with
  | ok n => cases hr
  | error e =>
    have hst' : d.session.stage = some .launching := by
      rw [Session.stage, hdrift.flight]
      exact hst
    exact ⟨e, Option.some.inj (hr.symm.trans (answer_launchFailed hd hst' e))⟩

theorem command_verdict (ho : f.Orderly) (hb : f.bridge = some b) (hl : f.locked = false)
    {cmd : Host.Command} {w : Binary64} {r : Except BootError Outcome}
    (hr : f.ending? (.command cmd w) = some r) :
    (∃ e, r = .error (.guest e)) ∨
      f.bootOf? (.command cmd w) = none ∧ r ≠ .error .exitHookDropped := by
  have hfree := ho.grounded hl b hb
  have hs := Session.command_step hfree w cmd
  have ht' : Tidy none { f with locked := true } := ⟨ho.tidy.fresh, ho.tidy.nodup, ho.tidy.hooks⟩
  by_cases hc : ∃ l, (b.session.command w cmd).progress = .launch l
  · obtain ⟨l, hp⟩ := hc
    obtain ⟨fl, hfl, hst, -⟩ := hs.launching_of_launch hp
    have hm := take_tidy ht' hb hs rfl
    rw [hp] at hm
    rw [ending?_of_launch hb hl hp] at hr
    exact .inl (boarding_verdict hm rfl (Session.stage_eq_some.mpr ⟨fl, hfl, hst⟩) hr)
  · have hp : ∀ l, (b.session.command w cmd).progress ≠ .launch l := fun l hl => hc ⟨l, hl⟩
    rw [ending?_of_done hb hl hp] at hr
    refine .inr ⟨?_, ?_⟩
    · simp only [bootOf?, hb, Option.bind_some]
      exact (hs.over_or_same rfl hp).elim id fun hsame =>
        hsame.2.trans (Session.boot?_eq_none.mpr hfree)
    · rintro rfl
      exact hs.command_keeps_hook hr

theorem boot?_isSome_of_holds (ho : f.Orderly) {t : Task} (ht : t ∈ f.tasks)
    (hh : t.holds = true) : ∃ boot, f.boot? = some boot := by
  have hs := ho.served t ht hh
  cases t with
  | command | watching => cases hh
  | loading n url =>
    obtain ⟨b, fl, hb, hf, -⟩ := hs
    exact ⟨_, by rw [boot?_of_some hb, Session.boot?, hf]; rfl⟩
  | running =>
    obtain ⟨b, fl, hb, hf, -⟩ := hs
    exact ⟨_, by rw [boot?_of_some hb, Session.boot?, hf]; rfl⟩

theorem Idle.ending? (h : f.Idle t) : f.ending? t = none := by
  cases h with
  | watching n waited => rfl
  | refused hl c w => simp only [Frame.ending?, hl, if_true]

theorem Orderly.polled_of_ending (ho : f.Orderly) (ht : t ∈ f.tasks)
    {r : Except BootError Outcome} (hr : f.ending? t = some r) :
    f.locked = t.holds ∧ ∀ n waited, t ≠ .watching n waited := by
  refine (ho.idle_or_polled ht).resolve_left fun hidle => ?_
  rw [hidle.ending?] at hr
  cases hr

theorem exitResult_eq_some {c : Boot.Config} {vs : List Value} {r : Except BootError Outcome}
    (hr : exitResult c vs = some r) :
    ∃ v ws, vs = v :: ws ∧ r = .ok (Session.outcomeOf c.program (exitCode v)) := by
  cases vs with
  | nil => cases hr
  | cons v ws => exact ⟨v, ws, rfl, (Option.some.inj hr).symm⟩

theorem ending_verdict (ho : f.Orderly) (hb : f.bridge = some b) (h : Attends cs f b)
    (ht : t ∈ f.tasks) {r : Except BootError Outcome} (hr : f.ending? t = some r) :
    (∃ e, r = .error (.guest e)) ∨ (f.bootOf? t = none ∧ r ≠ .error .exitHookDropped) ∨
      ∃ n c v vs, f.bootOf? t = some (n, c) ∧ passed (cs ++ f.pollCalls t) n = v :: vs ∧
        r = .ok (Session.outcomeOf c.program (exitCode v)) := by
  obtain ⟨hl, hw⟩ := ho.polled_of_ending ht hr
  cases t with
  | watching n waited => exact absurd rfl (hw n waited)
  | command cmd w =>
    rcases command_verdict ho hb hl hr with he | hn
    · exact .inl he
    · exact .inr (.inl hn)
  | loading | running =>
    obtain ⟨⟨n, c⟩, hboot⟩ := boot?_isSome_of_holds ho ht rfl
    rcases poll_verdict ho hb h ht rfl hboot with ⟨e, he⟩ | ⟨-, he⟩ | he
    · exact .inl ⟨e, Option.some.inj (hr.symm.trans he)⟩
    · rw [he] at hr
      cases hr
    · obtain ⟨v, vs, hv, hout⟩ := exitResult_eq_some (he.symm.trans hr)
      exact .inr (.inr ⟨n, c, v, vs, hboot, hv, hout⟩)

end Verdicts

end Frame

end Chip8Frame.Browser
