import Chip8Frame.Proofs.Acceptance
import Chip8Frame.Proofs.FrameAttributes

/-! One selection over both transports. What a frame carries when a send recreates it, and what is
received of the message that a send posts, are the same boot; whether it is accepted depends on the
program and the speed alone. -/

namespace Chip8Frame

/-! Members of an object can be visited in any order where setting one commutes with setting
another. -/

theorem Json.setMember_perm {name : String} {value : Json} {ms : List (String × Json)}
    (h : name ∉ ms.map Prod.fst) : (setMember name value ms).Perm ((name, value) :: ms) := by
  induction ms with
  | nil => exact .refl _
  | cons m ms ih =>
    obtain ⟨n, v⟩ := m
    obtain ⟨hn, hms⟩ := not_or.mp (mt List.mem_cons.mpr h)
    rw [setMember, if_neg hn]
    split
    · exact .refl _
    · exact ((ih hms).cons _).trans (.swap _ _ _)

theorem Json.ofMembers_perm (ms : List (String × Json)) (h : (ms.map Prod.fst).Nodup) :
    ∃ ns, ofMembers ms = .object ns ∧ ns.Perm ms := by
  refine ⟨_, rfl, ?_⟩
  induction ms using List.reverseRecOn with
  | nil => exact .refl _
  | append_singleton ms m ih =>
    rw [List.map_append, List.nodup_append] at h
    obtain ⟨hms, -, hd⟩ := h
    have hp := ih hms
    rw [List.foldl_append]
    refine (setMember_perm fun hm => ?_).trans ((hp.cons m).trans ?_)
    · exact hd m.1 ((hp.map Prod.fst).subset hm) m.1 (by simp) rfl
    · exact List.perm_append_singleton m ms |>.symm

theorem Decode.foldlM_perm {α β ε : Type} {f : α → β → Except ε α} {xs ys : List β}
    (h : xs.Perm ys)
    (hf : ∀ x ∈ xs, ∀ y ∈ xs, ∀ a, (f a x >>= fun a => f a y) = f a y >>= fun a => f a x) (a : α) :
    xs.foldlM f a = ys.foldlM f a := by
  induction h generalizing a with
  | nil => rfl
  | cons x _ ih =>
    have htail := ih fun y hy z hz => hf y (List.mem_cons_of_mem _ hy) z (List.mem_cons_of_mem _ hz)
    simp only [List.foldlM_cons, htail]
  | swap x y xs =>
    have hxy := hf x (by simp) y (by simp) a
    simp only [List.foldlM_cons, ← bind_assoc, hxy]
  | trans h _ ih ih' =>
    rw [ih hf, ih' fun x hx y hy => hf x (h.symm.subset hx) y (h.symm.subset hy)]

namespace Boot.Parameters

theorem string?_ofOption (v : Option String) :
    Decode.string? (Json.ofOption .string v) = .ok v := by
  cases v <;> rfl

theorem ofJson_toJson (p : Parameters) : ofJson p.toJson = .ok p := by
  obtain ⟨ms, hms, hp⟩ := Json.ofMembers_perm [(programKey, Json.ofOption .string p.program),
    (speedKey, Json.ofOption .string p.speed),
    (foregroundKey, Json.ofOption .string p.foreground),
    (backgroundKey, Json.ofOption .string p.background)]
    (by simp [programKey, speedKey, foregroundKey, backgroundKey])
  rw [toJson, hms, ofJson, Decode.record, ← Decode.foldlM_perm hp.symm]
  · simp [fields, string?_ofOption, lookup_cons_ite, programKey, speedKey, foregroundKey,
      backgroundKey, bind, Except.bind, pure, Except.pure]
  · simp [fields, string?_ofOption, lookup_cons_ite, programKey, speedKey, foregroundKey,
      backgroundKey, bind, Except.bind, pure, Except.pure]

end Boot.Parameters

end Chip8Frame

namespace Chip8Frame.Control

open Boot (Parameters Options Config ConfigError Speed filled?)
open Text (Blank)

theorem Theme.read_cases (token : String) :
    (∃ theme, Theme.read token = .ok theme ∧
        ¬ Blank theme.foreground ∧ ¬ Blank theme.background) ∨
      Theme.read token = .error (.invalidTheme token) := by
  simp only [Theme.read]
  cases (cut? ',' token.toList).or (cut? ':' token.toList) with
  | none => exact .inr rfl
  | some cut =>
    obtain ⟨a, b⟩ := cut
    by_cases h : String.ofList (Text.strip a) = "" ∨ String.ofList (Text.strip b) = ""
    · simp only [if_pos h]
      exact .inr trivial
    · obtain ⟨ha, hb⟩ := not_or.mp h
      simp only [if_neg h]
      exact .inl ⟨_, rfl, Text.not_blank_of_strip ha, Text.not_blank_of_strip hb⟩

section Selections

variable {s : Selection} {p : Parameters}

theorem Selection.parameters_of_read (s : Selection) {theme : Theme}
    (h : Theme.read s.theme = .ok theme) : ∃ p, s.parameters = .ok p := by
  rcases s.parameters_cases with ⟨theme, -, hp⟩ | ⟨e, he, -⟩
  · exact ⟨_, hp⟩
  · rw [h] at he
    cases he

theorem Selection.filled (h : s.parameters = .ok p) :
    p.program = some s.program ∧ p.speed = some s.speed ∧
      filled? p.foreground ≠ none ∧ filled? p.background ≠ none := by
  rcases s.parameters_cases with ⟨theme, hr, hp⟩ | ⟨e, -, hp⟩
  · rw [hp] at h
    cases h
    rcases Theme.read_cases s.theme with ⟨read, hread, hf, hb⟩ | he
    · obtain rfl : theme = read := Except.ok.inj (hr.symm.trans hread)
      have hsome : ∀ {t : String}, ¬ Blank t → filled? (some t) ≠ none := by
        intro t ht
        rcases Boot.filled?_some_cases t with ⟨hblank, -⟩ | ⟨-, hfilled⟩
        · exact absurd hblank ht
        · simp [hfilled]
      exact ⟨rfl, rfl, hsome hf, hsome hb⟩
    · rw [hr] at he
      cases he
  · rw [hp] at h
    cases h

/-- The program is not blank and the speed is a number that a guest can be given. -/
def Selection.Acceptable (s : Selection) : Prop :=
  ¬ Blank s.program ∧ ∃ speed, Speed (Text.trim s.speed) speed

theorem Selection.resolve_cases (h : s.parameters = .ok p) (w : Binary64) (o : Options) :
    (s.Acceptable ∧ ∃ config, p.resolve w o = .ok config) ∨
      ¬ s.Acceptable ∧ ∃ e, p.resolve w o = .error e ∧ (e = .missingProgram ∨
        e = .missingField Parameters.speedAttribute ∨ e = .invalidSpeed (Text.trim s.speed)) := by
  obtain ⟨hprogram, hspeed, hforeground, hbackground⟩ := Selection.filled h
  have hr := Boot.Resolved.of_resolve p w o
  generalize p.resolve w o = result at hr
  have hp := Boot.filled?_some_cases s.program
  have hs := Boot.filled?_some_cases s.speed
  rw [← hprogram] at hp
  rw [← hspeed] at hs
  cases hr with
  | noProgram hn =>
    refine .inr ⟨fun ha => ?_, _, rfl, .inl rfl⟩
    rcases hp with ⟨hb, -⟩ | ⟨-, hf⟩
    · exact ha.1 hb
    · rw [hn] at hf
      cases hf
  | noSpeed _ hn =>
    refine .inr ⟨fun ⟨_, speed, hv⟩ => ?_, _, rfl, .inr (.inl rfl)⟩
    rcases hs with ⟨hb, -⟩ | ⟨-, hf⟩
    · exact hv.not_empty (Text.trim_eq_empty.mpr hb)
    · rw [hn] at hf
      cases hf
  | badSpeed _ ht hn =>
    rcases hs with ⟨-, hf⟩ | ⟨-, hf⟩
    · rw [ht] at hf
      cases hf
    · obtain rfl := Option.some.inj (ht.symm.trans hf)
      exact .inr ⟨fun ⟨_, speed, hv⟩ => hn speed hv, _, rfl, .inr (.inr rfl)⟩
  | noForeground _ _ _ hf => exact absurd hf hforeground
  | noBackground _ _ _ _ hb => exact absurd hb hbackground
  | ready hf ht hv =>
    refine .inl ⟨⟨?_, ?_⟩, _, rfl⟩
    · rcases hp with ⟨-, hn⟩ | ⟨hb, -⟩
      · rw [hf] at hn
        cases hn
      · exact hb
    · rcases hs with ⟨-, hn⟩ | ⟨-, hn⟩
      · rw [ht] at hn
        cases hn
      · obtain rfl := Option.some.inj (ht.symm.trans hn)
        exact ⟨_, hv⟩

end Selections

section Deliveries

variable {φ : Type} [HostFrame φ] {c : Controller} {s : Selection} {p : Parameters}

theorem sendBoot_unreadable {e : Error} (he : Theme.read s.theme = .error e) (f : φ) :
    c.sendBoot s f = (.error e, c, HostFrame.blur f) := by
  rcases s.parameters_cases with ⟨theme, hr, -⟩ | ⟨e', hr, hp⟩
  · rw [hr] at he
    cases he
  · rw [hr] at he
    cases he
    simp [Controller.sendBoot, hp]

theorem posted_of_message (hc : c.transport = .message) (hp : s.parameters = .ok p)
    (f : Watched φ) : ∃ answer, (c.sendBoot s f).1 = answer.mapError .frame ∧
      (c.sendBoot s f).2.2.diary =
        .call (.post p) answer (HostFrame.blur f).frame :: .blur :: f.diary := by
  rcases hq : HostFrame.perform (.post p) (HostFrame.blur f) with ⟨answer, v⟩
  have hd := (Watched.perform_eq hq).2
  refine ⟨answer, ?_⟩
  cases answer with
  | error reason =>
    simp only [Controller.sendBoot, hp, hc, deliveryCalls, performAll, hq]
    exact ⟨rfl, hd⟩
  | ok =>
    simp only [Controller.sendBoot, hp, hc, deliveryCalls, performAll, hq]
    exact ⟨rfl, hd⟩

/-- A frame that is recreated by a send carries its parameters, even if that call fails. -/
theorem carried_recreated [Readable φ] (hc : c.transport = .attributes)
    (hp : s.parameters = .ok p) {f : Watched φ} (hf : Present f.frame)
    {answer : Except String Unit} {k : φ} {rest : List (Mark φ)}
    (hd : (c.sendBoot s f).2.2.diary = .call .recreate answer k :: rest) : carried k = p := by
  have hb := (Readable.blur hf).1
  obtain ⟨sets, hcalls, hwrites, hn⟩ := deliveryCalls_attributes p
  have hsent := Sent.of_sendBoot c s f
  generalize c.sendBoot s f = result at hsent hd
  cases hsent with
  | refused he =>
    rw [hp] at he
    cases he
  | delivered hr made =>
    obtain rfl := Except.ok.inj (hr.symm.trans hp)
    rw [hc, hcalls] at made
    obtain ⟨g, hsets, hlast⟩ := made.last
    rw [Watched.diary_note, (Watched.perform_eq hlast).2] at hd
    cases hd
    exact hsets.frame.carried hb hwrites
  | stopped hr broken =>
    obtain rfl := Except.ok.inj (hr.symm.trans hp)
    rw [hc, hcalls] at broken
    obtain ⟨g, hm, hfail⟩ := broken.fails
    rw [(Watched.perform_eq hfail).2] at hd
    cases hd
    rcases broken.at_last with ⟨rfl, -⟩ | ⟨-, hmem⟩
    · exact hm.frame.carried hb hwrites
    · exact absurd hmem hn

theorem ends_of_attributes (hc : c.transport = .attributes) (hp : s.parameters = .ok p)
    (f : Watched φ) : ∃ call answer k rest, (c.sendBoot s f).1 = answer.mapError .frame ∧
      (c.sendBoot s f).2.2.diary = .call call answer k :: rest ∧
        (answer = .ok () → call = .recreate) := by
  have hsent := Sent.of_sendBoot c s f
  generalize c.sendBoot s f = result at hsent
  cases hsent with
  | refused he =>
    rw [hp] at he
    cases he
  | @delivered p _ _ made =>
    obtain ⟨sets, hcalls, -⟩ := deliveryCalls_attributes p
    rw [hc, hcalls] at made
    obtain ⟨g, -, hlast⟩ := made.last
    exact ⟨_, _, _, _, rfl, (Watched.perform_eq hlast).2, fun _ => rfl⟩
  | stopped _ broken =>
    obtain ⟨g, -, hfail⟩ := broken.fails
    exact ⟨_, _, _, _, rfl, (Watched.perform_eq hfail).2, fun h => nomatch h⟩

end Deliveries

/-- The parameters that a frame carries and those of a message, resolved. -/
structure SameBoot (s : Selection) (carried received : Parameters) (w : Binary64) (o : Options) :
    Prop where
  resolve : received.resolve w o = carried.resolve w o
  accepted : (∃ config, carried.resolve w o = .ok config) ↔ s.Acceptable
  refused : ∀ e, carried.resolve w o = .error e → e = .missingProgram ∨
    e = .missingField Parameters.speedAttribute ∨ e = .invalidSpeed (Text.trim s.speed)

theorem SameBoot.of_parameters {s : Selection} {p : Parameters} (h : s.parameters = .ok p)
    (w : Binary64) (o : Options) : SameBoot s p p w o := by
  rcases Selection.resolve_cases h w o with ⟨ha, config, hr⟩ | ⟨ha, e, hr, he⟩
  · refine ⟨rfl, iff_of_true ⟨config, hr⟩ ha, fun e he => ?_⟩
    rw [hr] at he
    cases he
  · refine ⟨rfl, iff_of_false ?_ ha, fun e' he' => ?_⟩
    · rintro ⟨config, hc⟩
      rw [hr] at hc
      cases hc
    · rw [hr] at he'
      cases he'
      exact he

/-- What two controllers, one for each transport, do with a selection. -/
structure Agree {φ ψ : Type} [HostFrame φ] [Readable φ] [HostFrame ψ] (a m : Controller)
    (s : Selection) (f : Watched φ) (g : Watched ψ) : Prop where
  /-- Focus is taken from the page, and no call reaches a frame. -/
  unreadable : ∀ e, Theme.read s.theme = .error e → e = .invalidTheme s.theme ∧
    a.sendBoot s f = (.error e, a, HostFrame.blur f) ∧
      m.sendBoot s g = (.error e, m, HostFrame.blur g)
  posted : ∀ theme, Theme.read s.theme = .ok theme → ∃ p answer,
    (m.sendBoot s g).1 = answer.mapError .frame ∧ (m.sendBoot s g).2.2.diary =
      .call (.post p) answer (HostFrame.blur g).frame :: .blur :: g.diary
  recreated : ∀ theme, Theme.read s.theme = .ok theme → ∃ call answer k rest,
    (a.sendBoot s f).1 = answer.mapError .frame ∧
      (a.sendBoot s f).2.2.diary = .call call answer k :: rest ∧
        (answer = .ok () → call = .recreate)
  same : ∀ {answer k rest answer' before rest' p},
    (a.sendBoot s f).2.2.diary = .call .recreate answer k :: rest →
      (m.sendBoot s g).2.2.diary = .call (.post p) answer' before :: rest' →
        ∃ received, Parameters.ofJson p.toJson = .ok received ∧
          ∀ w o, SameBoot s (carried k) received w o

section Agreement

variable {φ ψ : Type} [HostFrame φ] [Readable φ] [HostFrame ψ] {a m : Controller} (s : Selection)
  {f : Watched φ} (g : Watched ψ)

theorem transports_agree (ha : a.transport = .attributes) (hm : m.transport = .message)
    (hf : Present f.frame) : Agree a m s f g where
  unreadable e he := by
    refine ⟨?_, sendBoot_unreadable he f, sendBoot_unreadable he g⟩
    rcases Theme.read_cases s.theme with ⟨theme, hr, -⟩ | hr
    · rw [hr] at he
      cases he
    · rw [hr] at he
      exact (Except.error.inj he).symm
  posted theme hr := by
    obtain ⟨p, hp⟩ := s.parameters_of_read hr
    exact ⟨p, posted_of_message hm hp g⟩
  recreated theme hr := by
    obtain ⟨p, hp⟩ := s.parameters_of_read hr
    exact ends_of_attributes ha hp f
  same hd hd' := by
    rcases s.parameters_cases with ⟨theme, -, hp⟩ | ⟨e, he, -⟩
    · obtain ⟨answer', -, hposted⟩ := posted_of_message hm hp g
      rw [hposted] at hd'
      cases hd'
      rw [carried_recreated ha hp hf hd]
      exact ⟨_, Parameters.ofJson_toJson _, fun w o => .of_parameters hp w o⟩
    · rw [sendBoot_unreadable he g] at hd'
      cases hd'

end Agreement

end Chip8Frame.Control

namespace Chip8Frame.Browser.FrameHandle

open Control

theorem Sample.pong_acceptable : Sample.pong.Acceptable := by
  constructor
  · intro hb
    have hp := hb 'P' (by decide)
    revert hp
    decide
  · refine ⟨10, ⟨['1', '0'], .inl ?_, List.cons_ne_nil _ _, ?_, rfl⟩, ?_⟩
    · decide
    · exact List.all_eq_true.mp rfl
    · decide

def Sample.watched : Watched FrameHandle := { frame := Sample.iframe [], diary := [] }

theorem transports_agree_of_pong : ∃ k rest,
    ((Controller.new .attributes).sendBoot Sample.pong Sample.watched).2.2.diary =
        .call .recreate (.ok ()) k :: rest ∧
      ∀ w o, ∃ config, (carried k).resolve w o = .ok config := by
  have h := transports_agree (a := .new .attributes) (m := .new .message) Sample.pong
    (f := Sample.watched) Sample.watched rfl rfl (Sample.iframe_present _)
  have hr : Theme.read Sample.pong.theme = .ok { foreground := "1", background := "0" } := rfl
  obtain ⟨call, answer, k, rest, hok, hd, hlast⟩ := h.recreated _ hr
  have hsent : ((Controller.new .attributes).sendBoot Sample.pong Sample.watched).1 = .ok () := rfl
  rw [hsent] at hok
  cases answer with
  | error reason => cases hok
  | ok =>
    obtain rfl := hlast rfl
    obtain ⟨p, answer, -, hp⟩ := h.posted _ hr
    obtain ⟨received, -, hsame⟩ := h.same hd hp
    exact ⟨k, rest, hd, fun w o => (hsame w o).accepted.mpr Sample.pong_acceptable⟩

end Chip8Frame.Browser.FrameHandle
