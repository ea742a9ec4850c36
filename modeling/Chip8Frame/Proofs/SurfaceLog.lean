import Chip8Frame.Proofs.Mounted

/-! The calls that a surface manager makes, over any sequence of its operations. What a log of calls
may look like is said without the manager: a ledger notes what each call mounts and takes away,
and has no place for a call out of turn. The manager reads nothing back, so every backend is driven
by the same log; what the backend in memory shows follows from the rules of the log alone. -/

namespace Chip8Frame

def Effect.call? : Effect → Option Surface.Call
  | note _ => none
  | surface call => some call

namespace Surface

def calls (es : List Effect) : List Call := es.filterMap Effect.call?

@[simp] theorem calls_nil : calls [] = [] := rfl

@[simp] theorem calls_note (n : Log.Notice) (es : List Effect) :
    calls (.note n :: es) = calls es := rfl

@[simp] theorem calls_surface (call : Call) (es : List Effect) :
    calls (.surface call :: es) = call :: calls es := rfl

@[simp] theorem calls_append (es fs : List Effect) : calls (es ++ fs) = calls es ++ calls fs :=
  List.filterMap_append

theorem calls_eq_nil {es : List Effect} (h : ∀ call, .surface call ∉ es) : calls es = [] := by
  refine List.filterMap_eq_nil_iff.mpr fun e he => ?_
  cases e with
  | note => rfl
  | surface call => exact absurd he (h call)

/-- What the calls so far have left mounted and bound. -/
structure Ledger where
  mounted : Option Kind
  banner : Bool
  keys : Bool
  deriving DecidableEq, Repr

namespace Ledger

def blank : Ledger := { mounted := none, banner := false, keys := false }

/-- A surface is mounted only where none is, and unmounted as the kind that is mounted; banners
come and go in turn; the keys are captured once. -/
def enter (l : Ledger) : Call → Option Ledger
  | .mountDisplay _ _ =>
      if l.mounted = none then some { l with mounted := some .display } else none
  | .mountDiagnostic _ =>
      if l.mounted = none then some { l with mounted := some .diagnostic } else none
  | .unmount kind => if l.mounted = some kind then some { l with mounted := none } else none
  | .mountBanner _ => if l.banner then none else some { l with banner := true }
  | .unmountBanner => if l.banner then some { l with banner := false } else none
  | .captureKeys => if l.keys then none else some { l with keys := true }

def replay (l : Ledger) (log : List Call) : Option Ledger := log.foldlM enter l

theorem replay_append (l : Ledger) (xs ys : List Call) :
    l.replay (xs ++ ys) = (l.replay xs).bind (·.replay ys) := List.foldlM_append

end Ledger

inductive Operation where
  | createDisplay (config : Boot.Config)
  | renderFault (fault : Fault)
  | clear
  | showBanner (version : String)
  | removeBanner
  | bindCapture

namespace Operation

def change (m : Manager) : Operation → Change
  | createDisplay c => m.createDisplay c.displaySize
  | renderFault f => m.renderFault f
  | clear => m.clear
  | showBanner v => m.showBanner v
  | removeBanner => m.removeBanner
  | bindCapture => m.bindCapture

/-- The call for which an operation exists, for those that tell whether they made it. -/
def purpose : Operation → Call → Bool
  | clear, .unmount _ | removeBanner, .unmountBanner | bindCapture, .captureKeys => true
  | _, _ => false

def answers : Operation → Bool
  | clear | removeBanner | bindCapture => true
  | createDisplay _ | renderFault _ | showBanner _ => false

end Operation

namespace Manager

def after : List Operation → Manager
  | [] => new
  | op :: ops => (op.change (after ops)).manager

def log : List Operation → List Call
  | [] => []
  | op :: ops => log ops ++ calls (op.change (after ops)).effects

section Backend

variable {β : Type} (perform : β → Call → β) (b : β)

def drive (es : List Effect) : β :=
  es.foldl (fun b e => match e with
    | .note _ => b
    | .surface call => perform b call) b

def driven : List Operation → β
  | [] => b
  | op :: ops => drive perform (driven ops) (op.change (after ops)).effects

theorem drive_eq_foldl (es : List Effect) : drive perform b es = (calls es).foldl perform b := by
  induction es generalizing b with
  | nil => rfl
  | cons e es ih => cases e <;> exact ih _

theorem driven_eq_foldl (ops : List Operation) :
    driven perform b ops = (log ops).foldl perform b := by
  induction ops with
  | nil => rfl
  | cons op ops ih => rw [driven, drive_eq_foldl, ih, log, List.foldl_append]

end Backend

def ledger (m : Manager) : Ledger :=
  { mounted := m.live, banner := m.bannerShown, keys := m.captureBound }

section Operations

variable (m : Manager)

theorem clear_ledger :
    m.ledger.replay (calls m.clear.effects) = some { m.ledger with mounted := none } ∧
      m.clear.manager.ledger = { m.ledger with mounted := none } := by
  unfold clear
  cases hl : m.live with
  | none => simp [unchanged, ledger, Ledger.replay, hl]
  | some kind => simp [ledger, Ledger.replay, Ledger.enter, hl]

theorem mount_ledger {call : Call} {kind : Kind}
    (hc : ∀ l : Ledger, l.mounted = none → l.enter call = some { l with mounted := some kind }) :
    m.ledger.replay (calls (m.clear.effects ++ [.surface call])) =
      some { m.clear.manager with live := some kind }.ledger := by
  obtain ⟨hr, hm⟩ := m.clear_ledger
  have hledger : { m.clear.manager with live := some kind }.ledger =
      { m.clear.manager.ledger with mounted := some kind } := rfl
  rw [calls_append, Ledger.replay_append, hr, hledger, hm]
  simpa [Ledger.replay] using hc { m.ledger with mounted := none } rfl

/-- Every operation makes its calls in turn, and its bookkeeping says what they come to. -/
theorem change_ledger (op : Operation) :
    m.ledger.replay (calls (op.change m).effects) = some (op.change m).manager.ledger := by
  cases op with
  | createDisplay c => exact m.mount_ledger fun l hl => by simp [Ledger.enter, hl]
  | renderFault f => exact m.mount_ledger fun l hl => by simp [Ledger.enter, hl]
  | clear =>
    obtain ⟨hr, hm⟩ := m.clear_ledger
    rw [Operation.change, hr, hm]
  | showBanner v =>
    unfold Operation.change showBanner
    cases hb : m.bannerShown <;>
      simp [unchanged, ledger, Ledger.replay, Ledger.enter, hb]
  | removeBanner =>
    unfold Operation.change removeBanner
    cases hb : m.bannerShown <;>
      simp [unchanged, ledger, Ledger.replay, Ledger.enter, hb]
  | bindCapture =>
    unfold Operation.change bindCapture
    cases hk : m.captureBound <;>
      simp [unchanged, ledger, Ledger.replay, Ledger.enter, hk]

theorem change_made {op : Operation} (ha : op.answers = true) :
    if (op.change m).made then ∃ call, calls (op.change m).effects = [call] ∧ op.purpose call
    else calls (op.change m).effects = [] ∧ (op.change m).manager = m := by
  cases op with
  | createDisplay | renderFault | showBanner => cases ha
  | clear =>
    unfold Operation.change clear
    cases hl : m.live <;> simp [unchanged, Operation.purpose]
  | removeBanner =>
    unfold Operation.change removeBanner
    cases hb : m.bannerShown <;> simp [unchanged, Operation.purpose]
  | bindCapture =>
    unfold Operation.change bindCapture
    cases hk : m.captureBound <;> simp [unchanged, Operation.purpose]

end Operations

theorem replay_log (ops : List Operation) :
    Ledger.blank.replay (log ops) = some (after ops).ledger := by
  induction ops with
  | nil => rfl
  | cons op ops ih =>
    rw [log, Ledger.replay_append, ih, Option.bind_some, change_ledger]
    rfl

end Manager

/-- The backend in memory has what the ledger says, and never had two surfaces at once. -/
structure Ledger.Shown (l : Ledger) (b : Headless) : Prop where
  display : b.display.isSome ↔ l.mounted = some .display
  diagnostic : b.diagnostic.isSome ↔ l.mounted = some .diagnostic
  banner : b.banner.isSome ↔ l.banner = true
  keys : b.keyCapture = l.keys
  peak : b.peakLive ≤ 1

namespace Ledger.Shown

variable {l k : Ledger} {b : Headless}

theorem blank : Ledger.blank.Shown .new := by
  constructor <;> simp [Ledger.blank, Headless.new]

theorem liveCount (h : l.Shown b) : b.liveCount = l.mounted.isSome.toNat := by
  have hd := h.display
  have hg := h.diagnostic
  unfold Headless.liveCount
  cases hm : l.mounted with
  | none => simp_all
  | some kind => cases kind <;> simp_all

theorem enter (h : l.Shown b) {call : Call} (hk : l.enter call = some k) :
    k.Shown (b.perform call) := by
  obtain ⟨hd, hg, hb, hc, hp⟩ := h
  cases call with
  | mountDisplay width height =>
    simp only [Ledger.enter, Option.ite_none_right_eq_some, Option.some.injEq] at hk
    obtain ⟨hm, rfl⟩ := hk
    have hn : b.diagnostic = none := by simpa [hm] using hg
    constructor <;>
      simp [Headless.perform, Headless.notePeak, Headless.liveCount, hn, hb, hc, hp]
  | mountDiagnostic text =>
    simp only [Ledger.enter, Option.ite_none_right_eq_some, Option.some.injEq] at hk
    obtain ⟨hm, rfl⟩ := hk
    have hn : b.display = none := by simpa [hm] using hd
    constructor <;>
      simp [Headless.perform, Headless.notePeak, Headless.liveCount, hn, hb, hc, hp]
  | unmount kind =>
    simp only [Ledger.enter, Option.ite_none_right_eq_some, Option.some.injEq] at hk
    obtain ⟨hm, rfl⟩ := hk
    cases kind with
    | display =>
      have hn : b.diagnostic = none := by simpa [hm] using hg
      constructor <;> simp [Headless.perform, hn, hb, hc, hp]
    | diagnostic =>
      have hn : b.display = none := by simpa [hm] using hd
      constructor <;> simp [Headless.perform, hn, hb, hc, hp]
  | mountBanner text =>
    simp only [Ledger.enter, Option.ite_none_left_eq_some, Option.some.injEq] at hk
    obtain ⟨-, rfl⟩ := hk
    exact ⟨hd, hg, by simp [Headless.perform], hc, hp⟩
  | unmountBanner =>
    simp only [Ledger.enter, Option.ite_none_right_eq_some, Option.some.injEq] at hk
    obtain ⟨-, rfl⟩ := hk
    exact ⟨hd, hg, by simp [Headless.perform], hc, hp⟩
  | captureKeys =>
    simp only [Ledger.enter, Option.ite_none_left_eq_some, Option.some.injEq] at hk
    obtain ⟨-, rfl⟩ := hk
    exact ⟨hd, hg, hb, rfl, hp⟩

theorem replay (h : l.Shown b) {log : List Call} (hk : l.replay log = some k) :
    k.Shown (log.foldl Headless.perform b) := by
  induction log generalizing l b with
  | nil =>
    obtain rfl := Option.some.inj hk
    exact h
  | cons call log ih =>
    obtain ⟨i, hi, hk⟩ := Option.bind_eq_some_iff.mp hk
    exact ih (h.enter hi) hk

end Ledger.Shown

theorem foldl_calls (b : Headless) (log : List Call) :
    (log.foldl Headless.perform b).calls = b.calls ++ log := by
  induction log generalizing b with
  | nil => simp
  | cons call log ih =>
    have hc : (b.perform call).calls = b.calls ++ [call] := by
      unfold Headless.perform Headless.notePeak
      split <;> rfl
    rw [List.foldl_cons, ih, hc, List.append_assoc, List.singleton_append]

namespace Manager

/-- What holds of the log of a manager and of what it drives. -/
structure LogLaw (ops : List Operation) : Prop where
  inTurn : Ledger.blank.replay (log ops) = some (after ops).ledger
  answered : ∀ op : Operation, op.answers = true →
    if (op.change (after ops)).made then
      ∃ call, calls (op.change (after ops)).effects = [call] ∧ op.purpose call
    else calls (op.change (after ops)).effects = [] ∧ (op.change (after ops)).manager = after ops
  backend : ∀ (β : Type) (perform : β → Call → β) (b : β),
    driven perform b ops = (log ops).foldl perform b
  recorded : (driven Headless.perform .new ops).calls = log ops
  liveCount : (driven Headless.perform .new ops).liveCount = (after ops).live.isSome.toNat
  peakLive : (driven Headless.perform .new ops).peakLive ≤ 1
  mirrors : Mirrors (driven Headless.perform .new ops) (after ops)
  keys : (driven Headless.perform .new ops).keyCapture = (after ops).captureBound

theorem log_law (ops : List Operation) : LogLaw ops := by
  have hlog := replay_log ops
  have hshown : (after ops).ledger.Shown (driven Headless.perform .new ops) := by
    rw [driven_eq_foldl]
    exact Ledger.Shown.blank.replay hlog
  exact {
    inTurn := hlog
    answered := fun op ha => (after ops).change_made ha
    backend := fun _ perform b => driven_eq_foldl perform b ops
    recorded := by
      rw [driven_eq_foldl, foldl_calls]
      rfl
    liveCount := hshown.liveCount
    peakLive := hshown.peak
    mirrors := ⟨hshown.display, hshown.diagnostic, hshown.banner⟩
    keys := hshown.keys }

end Manager

end Surface

end Chip8Frame
