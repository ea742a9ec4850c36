import Mathlib.Data.List.Forall2
import Chip8Frame.Proofs.ExitVerdict
import Chip8Frame.Proofs.LaunchOrder

/-! Histories that ask for the same boots in other words. A message and the attributes of a loaded
frame are two carriers of one request, and a restart is the remembered request sent again; which
of them is used leaves a mark on nothing but the carrier of the remembered request. -/

namespace Chip8Frame.Host

def Command.ofRequest : Boot.Request → Command
  | ⟨.attributes, p⟩ => .frameLoaded p
  | ⟨.message, p⟩ => .message p

namespace Session

/-- The sessions differ at most in the carrier of the remembered request. -/
inductive Alike (s : Session) : Session → Prop where
  | intro (x : Option Boot.Request)
      (hx : x.map Boot.Request.parameters =
        s.context.lastRequest.map Boot.Request.parameters) :
      Alike s { s with context := { s.context with lastRequest := x } }

structure TurnsAlike (t v : Turn) : Prop where
  session : Alike t.session v.session
  effects : v.effects = t.effects
  progress : v.progress = t.progress

/-- The second event asks for what the first one asks for. A request that names no program can
come by message only, since a frame without one shows its banner. -/
inductive Rewords (s : Session) : Event → Event → Prop where
  | same (e) : Rewords s e e
  | carried {w p} (c d : Boot.Carrier) (hp : p.requestsBoot = true) :
      Rewords s (.command w (.ofRequest ⟨c, p⟩)) (.command w (.ofRequest ⟨d, p⟩))
  | resent {w r} (d : Boot.Carrier) (hr : s.context.lastRequest = some r) :
      Rewords s (.command w .restart) (.command w (.ofRequest ⟨d, r.parameters⟩))

/-- Event by event, the second history rewords the first. -/
inductive Reworded (o : Boot.Options) : List Event → List Event → Prop where
  | nil : Reworded o [] []
  | cons {es fs e f} (h : Reworded o es fs) (hw : (after o es).Rewords e f) :
      Reworded o (e :: es) (f :: fs)

def turns (o : Boot.Options) : List Event → List Turn
  | [] => []
  | e :: es => (after o es).next e :: turns o es

section Requests

variable {s u : Session} {c d : Command} {r q : Boot.Request} {e f : Event} {t : Turn}

theorem Alike.refl (s : Session) : Alike s s := .intro s.context.lastRequest rfl

theorem Alike.enabled (h : Alike s u) (e : Event) : u.Enabled e ↔ s.Enabled e := by
  cases h with
  | intro x hx => cases e <;> exact Iff.rfl

theorem requestOf_ofRequest {p : Boot.Parameters} (hp : p.requestsBoot = true)
    (d : Boot.Carrier) : s.requestOf (.ofRequest ⟨d, p⟩) = some ⟨d, p⟩ := by
  cases d with
  | attributes => simp only [Command.ofRequest, requestOf, hp, if_true]
  | message => rfl

theorem Alike.request (h : Alike s u) (w : Binary64) (hp : q.parameters = r.parameters) :
    TurnsAlike (s.request r w) (u.request q w) := by
  cases h with
  | intro x hx =>
    unfold Session.request
    rw [hp]
    cases r.parameters.resolve w s.context.options with
    | error e => exact ⟨.intro x hx, rfl, rfl⟩
    | ok config =>
      have hq : (some q).map Boot.Request.parameters = (some r).map Boot.Request.parameters :=
        congrArg some hp
      cases hs : s.context.state.acceptsBoot with
      | false =>
        simp only [boot, hs, Bool.false_eq_true, if_false]
        exact ⟨.intro (some q) hq, rfl, rfl⟩
      | true =>
        simp only [boot, hs, if_true]
        exact ⟨.intro (some q) hq, rfl, rfl⟩

theorem Alike.asked (h : Alike s u) (w : Binary64) (hr : s.requestOf c = some r)
    (hq : u.requestOf d = some q) (hp : q.parameters = r.parameters) :
    TurnsAlike (s.next (.command w c)) (u.next (.command w d)) := by
  simp only [next, command_eq_request hr, command_eq_request hq]
  exact h.request w hp

theorem Alike.command (h : Alike s u) (w : Binary64) (c : Command) :
    TurnsAlike (s.next (.command w c)) (u.next (.command w c)) := by
  cases c with
  | frameLoaded p =>
    cases hp : p.requestsBoot with
    | true =>
      have hr := requestOf_ofRequest (s := s) hp .attributes
      have hq := requestOf_ofRequest (s := u) hp .attributes
      exact h.asked w hr hq rfl
    | false =>
      cases h with
      | intro x hx =>
        simp only [next, Session.command, hp, Bool.false_eq_true, if_false]
        exact ⟨.intro x hx, rfl, rfl⟩
  | message p => exact h.asked w (r := ⟨.message, p⟩) (q := ⟨.message, p⟩) rfl rfl rfl
  | restart =>
    cases h with
    | intro x hx =>
      cases hr : s.context.lastRequest with
      | none =>
        have hn : x = none := by simpa [hr] using hx
        subst hn
        simp only [next, Session.command, hr]
        exact ⟨.intro none hx, rfl, rfl⟩
      | some r =>
        obtain ⟨q, rfl, hq⟩ : ∃ q, x = some q ∧ q.parameters = r.parameters := by
          simpa [hr, Option.map_eq_some_iff] using hx
        exact (Alike.intro (some q) hx).asked w hr rfl hq

theorem Step.alike (hs : Step s e t) (h : Alike s u) (hc : ∀ w c, e ≠ .command w c) :
    ∃ v, Step u e v ∧ TurnsAlike t v := by
  cases h with
  | intro x hx =>
    cases hs with
    | bannerShown | nothingToRestart | refused | busy | accepted => exact absurd rfl (hc _ _)
    | launchFailed hf hg => exact ⟨_, .launchFailed hf hg, .intro x hx, rfl, rfl⟩
    | launched hf hg => exact ⟨_, .launched hf hg, .intro x hx, rfl, rfl⟩
    | startFailed hf hg => exact ⟨_, .startFailed hf hg, .intro x hx, rfl, rfl⟩
    | waiting hl hp => exact ⟨_, .waiting hl hp, .intro x hx, rfl, rfl⟩
    | hookLost hl hp => exact ⟨_, .hookLost hl hp, .intro x hx, rfl, rfl⟩
    | exited hl hp =>
      refine ⟨_, .exited hl hp, ?_⟩
      simp only [Context.exited]
      split
      · exact ⟨.intro x hx, rfl, rfl⟩
      · exact ⟨.intro x hx, rfl, rfl⟩
    | abandoned hf hg => exact ⟨_, .abandoned hf hg, .intro x hx, rfl, rfl⟩
    | signalled hn => exact ⟨_, .signalled hn, .intro x hx, rfl, rfl⟩
    | cloned hn => exact ⟨_, .cloned hn, .intro x hx, rfl, rfl⟩
    | dropped hn => exact ⟨_, .dropped hn, .intro x hx, rfl, rfl⟩
    | recorded => exact ⟨_, .recorded, .intro x hx, rfl, rfl⟩
    | recordedLate hl => exact ⟨_, .recordedLate hl, .intro x hx, rfl, rfl⟩
    | reset hf => exact ⟨_, .reset hf, .refl _, rfl, rfl⟩

theorem Rewords.alike (hw : s.Rewords e f) (h : Alike s u) (he : s.Enabled e)
    (hb : ∀ r, s.context.lastRequest = some r → r.parameters.requestsBoot = true) :
    u.Enabled f ∧ TurnsAlike (s.next e) (u.next f) := by
  cases hw with
  | same =>
    refine ⟨(h.enabled e).mpr he, ?_⟩
    by_cases hc : ∃ w c, e = .command w c
    · obtain ⟨w, c, rfl⟩ := hc
      exact h.command w c
    · obtain ⟨v, hv, ht⟩ := (next_step he).alike h fun w c hx => hc ⟨w, c, hx⟩
      rw [hv.next_eq]
      exact ht
  | carried c d hp =>
    exact ⟨(h.enabled _).mpr he,
      h.asked _ (requestOf_ofRequest hp c) (requestOf_ofRequest hp d) rfl⟩
  | resent d hr =>
    exact ⟨(h.enabled _).mpr he, h.asked _ hr (requestOf_ofRequest (hb _ hr) d) rfl⟩

end Requests

section Histories

variable {o : Boot.Options} {es fs : List Event}

theorem remembered_requestsBoot (h : Possible o es) {r : Boot.Request}
    (hr : (after o es).context.lastRequest = some r) : r.parameters.requestsBoot = true := by
  induction es generalizing r with
  | nil => cases hr
  | cons e es ih =>
    have hs := next_step h.1
    rw [after_cons] at hr
    have named : ∀ {q : Boot.Request} {w config}, q.parameters.resolve w
        (after o es).context.options = .ok config → q.parameters.requestsBoot = true := by
      intro q w config hc
      obtain ⟨name, hn, -⟩ := program_of_resolve hc
      simp [Boot.Parameters.requestsBoot, hn]
    generalize (after o es).next e = t at hs hr
    cases hs with
    | busy _ _ hc | accepted _ _ hc =>
      obtain rfl := Option.some.inj hr
      exact named hc
    | exited =>
      simp only [landed, Context.exited] at hr
      split at hr
      · exact ih h.2 hr
      · exact ih h.2 hr
    | reset => cases hr
    | _ => exact ih h.2 hr

/-- Asking in other words changes no turn of a history: the same guests are launched and started
with the same arguments, the page and every state on the way are the same, and so is how each
command ends. Only the carrier of the remembered request tells the two histories apart. -/
theorem reworded_alike (h : Possible o es) (hw : Reworded o es fs) :
    Possible o fs ∧ Alike (after o es) (after o fs) ∧
      List.Forall₂ TurnsAlike (turns o es) (turns o fs) ∧
      shown o fs = shown o es ∧ launches o fs = launches o es ∧ results o fs = results o es := by
  induction hw with
  | nil => exact ⟨trivial, .refl _, .nil, rfl, rfl, rfl⟩
  | @cons es fs e f hw hr ih =>
    obtain ⟨hp, ha, ht, hb, hl, hd⟩ := ih h.2
    obtain ⟨he, hn⟩ := hr.alike ha h.1 fun r => remembered_requestsBoot h.2
    have hback : ∀ b, f.backend b = e.backend b := by
      cases hr <;> exact fun _ => rfl
    refine ⟨⟨he, hp⟩, hn.session, .cons hn ht, ?_, ?_, ?_⟩
    · rw [shown_cons, shown_cons, hn.effects, hb, hback]
    · rw [launches, launches, hn.progress, hl]
    · rw [results, results, hn.progress, hd]

end Histories

def Sample.rerun : List Event := .command Sample.width .restart :: Sample.crashed

def Sample.rerunByAttributes : List Event :=
  .command Sample.width (.frameLoaded (Sample.parameters "PONG")) :: .poll ::
    .signal 0 Exit.invalidOpcode :: .started (.ok ()) :: .launched (.ok ()) ::
    [.command Sample.width (.frameLoaded (Sample.parameters "PONG"))]

theorem reworded_alike_of_rerun :
    Possible .default Sample.rerun ∧ Reworded .default Sample.rerun Sample.rerunByAttributes ∧
    launches .default Sample.rerunByAttributes = launches .default Sample.rerun := by
  have hp : Possible .default Sample.rerun := by decide +kernel
  have hr : (after .default Sample.crashed).context.lastRequest =
      some ⟨.message, Sample.parameters "PONG"⟩ := by decide +kernel
  have hb : (Sample.parameters "PONG").requestsBoot = true := rfl
  have hw : Reworded .default Sample.rerun Sample.rerunByAttributes := by
    refine .cons (.cons (.cons (.cons (.cons (.cons .nil ?_) ?_) ?_) ?_) ?_) ?_
    · exact .carried .message .attributes hb
    · exact .same _
    · exact .same _
    · exact .same _
    · exact .same _
    · exact .resent .attributes hr
  obtain ⟨-, -, -, -, hl, -⟩ := reworded_alike hp hw
  exact ⟨hp, hw, hl⟩

end Session

end Chip8Frame.Host
