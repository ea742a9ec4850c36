import Chip8Frame.Proofs.Depicted
import Chip8Frame.Proofs.Endings
import Chip8Frame.Proofs.RestartSize
import Chip8Frame.Proofs.Truncation

/-! How the value decides that a guest passes to its exit function first. A run whose guest is
started ends at the next poll of its task. The value is cast to a code: a number to its integer
part, anything else to the general failure. So an integer is reported as it is, while a run ends
cleanly not only with zero but with every number next to it, and with what is no number although it
has the type of one. With any other value the run faults, and its diagnostic is mounted. -/

namespace Chip8Frame.Browser

open Host (Session Turn Context BootError Outcome)
open Host.Session (exitResult)
open DocumentSurface (textBlock diagnosticId)

/-- A value that counts as a clean exit. -/
inductive Vanishes : Value → Prop where
  | nan : Vanishes (.number .nan)
  | small {x : Binary64} {q : ℚ} (hx : x.toRat? = some q) (hq : |q| < 1) : Vanishes (.number x)

namespace Frame

/-- The bridge keeps a fault, and its diagnostic is the last thing on the page. -/
structure Diagnosed (f : Frame) (fault : Fault) : Prop where
  kept : ∃ b, f.bridge = some b ∧ b.session.context.state = .faulted fault ∧
    b.session.context.surfaces.live = some .diagnostic
  mounted : f.realm.failures = [] → ∀ body, f.realm.body = some body →
    ∃ n, body.children.getLast? = some (.mk (textBlock n diagnosticId fault.banner) [])

/-- How a poll in one frame, which leaves another one, ends a run by the value it was passed. -/
structure ExitValueLaw (f g : Frame) (t : Task) (c : Boot.Config) (v : Value) : Prop where
  clean : Vanishes v → f.ending? t = some (.ok .clean) ∧
    ∃ b, g.bridge = some b ∧ b.session.context.state = .idle
  faulted : ¬ Vanishes v → ∃ code : FaultCode, code.value = exitCode v ∧
    f.ending? t = some (.ok (.faulted (.of code c.program))) ∧ g.Diagnosed (.of code c.program)
  /-- An integer is its own code. -/
  whole : ∀ (x : Binary64) (k : ℤ), v = .number x → x.toRat? = some (k : ℚ) →
    Int32.minValue.toInt ≤ k → k ≤ Int32.maxValue.toInt → (exitCode v).toInt = k
  /-- What is no number is a general failure. -/
  general : v.number? = none → exitCode v = Exit.general

section Codes

variable {v : Value}

theorem exitCode_eq_clean_iff : exitCode v = Exit.clean ↔ Vanishes v := by
  cases v with
  | number x =>
    refine (Binary64.truncateInt32_eq_zero_iff x).trans ⟨?_, ?_⟩
    · rintro (rfl | ⟨q, hx, hq⟩)
      · exact .nan
      · exact .small hx hq
    · rintro (_ | ⟨hx, hq⟩)
      · exact .inl rfl
      · exact .inr ⟨_, hx, hq⟩
  | _ => exact ⟨fun h : Exit.general = Exit.clean => absurd h (by decide), nofun⟩

theorem exitCode_general (h : v.number? = none) : exitCode v = Exit.general := by
  cases v with
  | number x => cases h
  | _ => rfl

theorem ofExit_of_vanishes (h : Vanishes v) : FaultCode.ofExit? (exitCode v) = none := by
  rw [FaultCode.ofExit?, dif_pos (exitCode_eq_clean_iff.mpr h)]

theorem ofExit_of_not_vanishes (h : ¬ Vanishes v) :
    ∃ k : FaultCode, k.value = exitCode v ∧ FaultCode.ofExit? (exitCode v) = some k := by
  have hne : exitCode v ≠ Exit.clean := fun hc => h (exitCode_eq_clean_iff.mp hc)
  exact ⟨⟨exitCode v, hne⟩, rfl, by rw [FaultCode.ofExit?, dif_neg hne]⟩

end Codes

/-! The end of a run on the page. -/

section Pages

variable {f g : Frame} {b : Bridge} {fault : Fault} {h : Context} {run : Nat} {c : Boot.Config}
  {code : Int32} {t : Turn}

theorem finish_failures (f : Frame) (r : Except BootError Outcome) :
    (f.finish r).realm.failures = f.realm.failures := by
  obtain ⟨realm, hk, he⟩ := finish_eq f r
  rw [he]
  exact hk.failures

theorem finish_body (f : Frame) (r : Except BootError Outcome) :
    (f.finish r).realm.body = f.realm.body := by
  have hreport : ∀ n, (f.report n).realm.body = f.realm.body := fun n => by
    obtain ⟨events, he⟩ := f.realm.report_eq n
    simp only [report, he]
  unfold finish
  split
  · rfl
  all_goals exact hreport _

theorem Diagnosed.finish (hd : Diagnosed f fault) (r : Except BootError Outcome) (i : Nat) :
    Diagnosed ((f.finish r).leave i none) fault where
  kept := by
    rw [leave_bridge, finish_bridge]
    exact hd.kept
  mounted := by
    rw [leave_realm, finish_failures, finish_body]
    exact hd.mounted

theorem mountDiagnostic_body (d : DocumentSurface) (text : String) {r : Realm}
    (hf : r.failures = []) :
    ∃ n, (d.mountDiagnostic text r).2.body =
      r.body.map (·.push (.mk (textBlock n diagnosticId text) [])) := by
  obtain ⟨a, ha⟩ := DocumentSurface.addTextBlock_works diagnosticId text r hf
  unfold DocumentSurface.mountDiagnostic
  rcases DocumentSurface.addTextBlock_cases diagnosticId text r with ⟨v, s, he, -⟩ | ⟨s, he, hb, -⟩
  · simp [he] at ha
  · rw [he]
    exact ⟨_, hb⟩

theorem apply_diagnostic (d : DocumentSurface) {es : List Effect}
    (hc : Effect.surface .captureKeys ∉ es) (text : String) (r : Realm) :
    (d.apply (es ++ [.surface (.mountDiagnostic text)]) r).2.failures = r.failures ∧
      (r.failures = [] → ∀ body,
        (d.apply (es ++ [.surface (.mountDiagnostic text)]) r).2.body = some body →
          ∃ n, body.children.getLast? = some (.mk (textBlock n diagnosticId text) [])) := by
  have hkept := d.apply_kept hc r
  simp only [DocumentSurface.apply_append, DocumentSurface.apply_surface,
    DocumentSurface.apply_nil]
  refine ⟨?_, fun hf body hbody => ?_⟩
  · exact (DocumentSurface.perform_failures _ _ _).trans hkept.failures
  · obtain ⟨n, hn⟩ := mountDiagnostic_body (d.apply es r).1 text (hkept.failures.trans hf)
    obtain ⟨before, -, rfl⟩ := Option.map_eq_some_iff.mp (hn.symm.trans hbody)
    exact ⟨n, List.getLast?_concat⟩

theorem take_diagnosed (hs : t.session.context = (h.exited run c code).1)
    (he : t.effects = (h.exited run c code).2.1) {k : FaultCode}
    (hk : FaultCode.ofExit? code = some k) : Diagnosed (f.take b t) (.of k c.program) := by
  simp only [Context.exited, hk] at hs he
  have hclear : Effect.surface .captureKeys ∉
      Effect.note (.faulted run (.of k c.program)) :: h.surfaces.clear.effects := by
    unfold Surface.Manager.clear
    split <;> simp [Surface.Manager.unchanged]
  obtain ⟨hfail, hmount⟩ := apply_diagnostic b.surface hclear (Fault.of k c.program).banner f.realm
  have hrealm : (f.take b t).realm = (b.surface.apply t.effects f.realm).2 := rfl
  refine ⟨⟨_, rfl, ?_, ?_⟩, ?_⟩
  · show t.session.context.state = _
    rw [hs]
  · show t.session.context.surfaces.live = _
    rw [hs]
    rfl
  · rw [hrealm, he]
    exact fun hf => hmount (hfail.symm.trans hf)

end Pages

section Law

variable {f g : Frame} {p : Opening} {h : List Happening} {i n : Nat} {t : Task} {c : Boot.Config}
  {v : Value}

theorem Looked.exits {cs : List ExitCall} {turn : Session → Turn} (hl : Looked cs f t g turn)
    (hboot : f.boot? = some (n, c)) (hv : (passed (cs ++ f.pollCalls t) n).head? = some v) :
    ∃ (d : Bridge) (u : Turn) (x : Context) (run : Nat) (r : Except BootError Outcome),
      (f.pollTask t).2 = (none, (g.take d u).finish r) ∧
        u.session.context = (x.exited run c (exitCode v)).1 ∧
        u.effects = (x.exited run c (exitCode v)).2.1 := by
  obtain ⟨d, e, fl, hd, ha, hlook, hturn⟩ := hl.looks
  have hdboot : d.session.boot? = some (n, c) :=
    (boot?_of_some hd).symm.trans (hl.boot.trans hboot)
  obtain ⟨fl', hf, rfl, rfl⟩ := Session.boot?_eq_some.mp hdboot
  obtain rfl := Option.some.inj (hlook.1.symm.trans hf)
  have htold := (ha.informed.told _ _ hdboot).2
  rw [hv, Option.map_some] at htold
  have hnext := hlook.next_of_delivered htold
  refine ⟨d, d.session.next e, d.session.context, fl.run,
    .ok (d.session.context.exited fl.run fl.config (exitCode v)).2.2, ?_, ?_, ?_⟩
  · rw [hl.polled]
    simp only [respond, hd, hturn, conclude, hnext]
  · rw [hnext]
    rfl
  · rw [hnext]

/-- The first value that a started run is passed decides how it ends, and it ends when it is polled
next. -/
theorem exit_value_law (hi : (after p h).tasks[i]? = some t) (hs : (after p h).Starts t)
    (hboot : (after p h).boot? = some (n, c))
    (hv : (passed (calls p (.turn i :: h)) n).head? = some v) :
    ExitValueLaw (after p h) (after p (.turn i :: h)) t c v := by
  have ho := after_orderly p h
  have ht := List.mem_of_getElem? hi
  obtain ⟨b, hb⟩ := ho.bridge_of_mem ht
  obtain ⟨g, turn, hl⟩ := hs.looked ho hb ((after_attentive p h).attends b hb) ht
  rw [calls_turn hi] at hv
  have hending : (after p h).ending? t = some (.ok (Session.outcomeOf c.program (exitCode v))) := by
    rw [hl.ending hboot, exitResult, hv]
    rfl
  obtain ⟨d, u, x, run, r, hpoll, hcontext, heffects⟩ := hl.exits hboot hv
  have hafter : after p (.turn i :: h) = ((g.take d u).finish r).leave i none := by
    rw [after_cons, next, turn_of_some hi, hpoll]
  refine ⟨fun hz => ?_, fun hz => ?_, ?_, exitCode_general⟩
  · have hcode := ofExit_of_vanishes hz
    refine ⟨by rw [hending, Session.outcomeOf, hcode], ?_⟩
    rw [hafter, leave_bridge, finish_bridge]
    refine ⟨_, rfl, ?_⟩
    show u.session.context.state = .idle
    rw [hcontext, Context.exited, hcode]
  · obtain ⟨k, hk, hcode⟩ := ofExit_of_not_vanishes hz
    refine ⟨k, hk, by rw [hending, Session.outcomeOf, hcode], ?_⟩
    rw [hafter]
    exact (take_diagnosed hcontext heffects hcode).finish r i
  · rintro y k rfl hy hmin hmax
    exact Binary64.toInt_truncateInt32_of_int hy hmin hmax

end Law

def Sample.exiting (v : Value) : Opening :=
  { Sample.framed with
    scripts := [{ GuestScript.plain with atRun := [.exit none v], returned := .value }] }

def Sample.launched : List Happening := [.turn 0, .act (.message Sample.pong), .listen .undefined]

theorem exit_value_law_of_invalid_opcode :
    ∃ code : FaultCode, code.value = Exit.invalidOpcode ∧
      (after (Sample.exiting (.number (.ofInt 52))) (.turn 0 :: Sample.launched)).Diagnosed
        (.of code "PONG") := by
  have hb : (after (Sample.exiting (.number (.ofInt 52))) Sample.launched).bridge.isSome := rfl
  have hboot : (after (Sample.exiting (.number (.ofInt 52))) Sample.launched).boot? =
      some (0, Sample.boot.config) := rfl
  have hv : (passed (calls (Sample.exiting (.number (.ofInt 52))) (.turn 0 :: Sample.launched))
      0).head? = some (.number (.ofInt 52)) := rfl
  have hcode : exitCode (.number (.ofInt 52)) = Exit.invalidOpcode := rfl
  have hlaw := exit_value_law rfl (.loaded rfl rfl (Option.some_get hb).symm rfl) hboot hv
  obtain ⟨code, hk, -, hd⟩ := hlaw.faulted fun hz => by
    have hclean := hcode.symm.trans (exitCode_eq_clean_iff.mpr hz)
    revert hclean
    decide
  exact ⟨code, hk.trans hcode, hd⟩

/-- A guest that passes what is no number to its exit function exits cleanly. -/
theorem clean_exit_of_nan :
    ¬ ∀ p h i t n c v, (after p h).tasks[i]? = some t → (after p h).Starts t →
      (after p h).boot? = some (n, c) → (passed (calls p (.turn i :: h)) n).head? = some v →
        (after p h).ending? t = some (.ok .clean) →
          ∃ x, v = .number x ∧ x.toRat? = some 0 := by
  intro hn
  have hb : (after (Sample.exiting (.number .nan)) Sample.launched).bridge.isSome := rfl
  have hboot : (after (Sample.exiting (.number .nan)) Sample.launched).boot? =
      some (0, Sample.boot.config) := rfl
  have hv : (passed (calls (Sample.exiting (.number .nan)) (.turn 0 :: Sample.launched))
      0).head? = some (.number .nan) := rfl
  have hclean : (after (Sample.exiting (.number .nan)) Sample.launched).ending?
      (.loading 0 "chip8.wasm") = some (.ok .clean) := rfl
  obtain ⟨x, hx, hzero⟩ := hn _ _ 0 _ _ _ _ rfl (.loaded rfl rfl (Option.some_get hb).symm rfl)
    hboot hv hclean
  obtain rfl := Value.number.inj hx
  cases hzero

end Frame

end Chip8Frame.Browser
