import Chip8Frame.Surface.Manager

/-! What the effects of a bridge leave mounted. No operation reads anything back from a backend,
so replaying the surface calls on the backend in memory shows what any backend was told.
The bookkeeping of a manager mirrors that page after every operation. -/

namespace Chip8Frame.Surface

namespace Headless

/-- The backend after the surface calls among some effects. -/
def replay (b : Headless) : List Effect → Headless
  | [] => b
  | .note _ :: es => b.replay es
  | .surface call :: es => (b.perform call).replay es

@[simp] theorem replay_nil (b : Headless) : b.replay [] = b := rfl

@[simp] theorem replay_note (b : Headless) (n : Log.Notice) (es : List Effect) :
    b.replay (.note n :: es) = b.replay es := rfl

@[simp] theorem replay_surface (b : Headless) (call : Call) (es : List Effect) :
    b.replay (.surface call :: es) = (b.perform call).replay es := rfl

theorem replay_append (b : Headless) (es fs : List Effect) :
    b.replay (es ++ fs) = (b.replay es).replay fs := by
  induction es generalizing b with
  | nil => rfl
  | cons e es ih => cases e <;> exact ih _

theorem replay_of_silent {es : List Effect} (h : ∀ call, .surface call ∉ es) (b : Headless) :
    b.replay es = b := by
  induction es with
  | nil => rfl
  | cons e es ih =>
    cases e with
    | note => exact ih fun call hc => h call (List.mem_cons_of_mem _ hc)
    | surface call => exact absurd List.mem_cons_self (h call)

end Headless

namespace Manager

variable (m : Manager)

@[simp] theorem clear_live : m.clear.manager.live = none := by
  unfold clear
  split
  · rfl
  · assumption

@[simp] theorem clear_bannerShown : m.clear.manager.bannerShown = m.bannerShown := by
  unfold clear
  split <;> rfl

theorem clear_effects_of_none {m : Manager} (h : m.live = none) : m.clear.effects = [] := by
  simp [clear, h, unchanged]

@[simp] theorem createDisplay_live (size : UInt32 × UInt32) :
    (m.createDisplay size).manager.live = some .display := rfl

@[simp] theorem createDisplay_bannerShown (size : UInt32 × UInt32) :
    (m.createDisplay size).manager.bannerShown = m.bannerShown := m.clear_bannerShown

theorem createDisplay_effects_of_none {m : Manager} (h : m.live = none)
    (size : UInt32 × UInt32) :
    (m.createDisplay size).effects = [.surface (.mountDisplay size.1 size.2)] := by
  simp [createDisplay, clear_effects_of_none h]

@[simp] theorem renderFault_live (f : Fault) :
    (m.renderFault f).manager.live = some .diagnostic := rfl

@[simp] theorem renderFault_bannerShown (f : Fault) :
    (m.renderFault f).manager.bannerShown = m.bannerShown := m.clear_bannerShown

@[simp] theorem showBanner_live (v : String) : (m.showBanner v).manager.live = m.live := by
  unfold showBanner
  split <;> rfl

@[simp] theorem showBanner_bannerShown (v : String) :
    (m.showBanner v).manager.bannerShown = true := by
  unfold showBanner
  split
  · assumption
  · rfl

@[simp] theorem removeBanner_live : m.removeBanner.manager.live = m.live := by
  unfold removeBanner
  split <;> rfl

@[simp] theorem removeBanner_bannerShown : m.removeBanner.manager.bannerShown = false := by
  unfold removeBanner
  split
  · rfl
  · simp_all [unchanged]

end Manager

/-- The bookkeeping of a manager tells what is mounted. -/
structure Mirrors (b : Headless) (m : Manager) : Prop where
  display : b.display.isSome ↔ m.live = some .display
  diagnostic : b.diagnostic.isSome ↔ m.live = some .diagnostic
  banner : b.banner.isSome ↔ m.bannerShown = true

namespace Mirrors

variable {b : Headless} {m : Manager}

theorem display_eq_none (h : Mirrors b m) (hl : m.live ≠ some .display) : b.display = none := by
  have hd := mt h.display.mp hl
  simpa using hd

theorem diagnostic_eq_none (h : Mirrors b m) (hl : m.live ≠ some .diagnostic) :
    b.diagnostic = none := by
  have hd := mt h.diagnostic.mp hl
  simpa using hd

theorem banner_eq_none (h : Mirrors b m) (hs : m.bannerShown = false) : b.banner = none := by
  have hb := h.banner
  simpa [hs] using hb

theorem of_page {size : Option (UInt32 × UInt32)} {text banner : Option String}
    (hp : b.display = size ∧ b.diagnostic = text ∧ b.banner = banner)
    (hd : size.isSome ↔ m.live = some .display)
    (ht : text.isSome ↔ m.live = some .diagnostic)
    (hb : banner.isSome ↔ m.bannerShown = true) : Mirrors b m := by
  obtain ⟨rfl, rfl, rfl⟩ := hp
  exact ⟨hd, ht, hb⟩

theorem clear_page (h : Mirrors b m) :
    (b.replay m.clear.effects).display = none ∧ (b.replay m.clear.effects).diagnostic = none ∧
    (b.replay m.clear.effects).banner = b.banner := by
  cases hl : m.live with
  | none =>
    rw [Manager.clear_effects_of_none hl]
    exact ⟨h.display_eq_none (by simp [hl]), h.diagnostic_eq_none (by simp [hl]), rfl⟩
  | some kind =>
    have he : m.clear.effects =
        [.note (.removingSurface kind), .surface (.unmount kind)] := by
      simp [Manager.clear, hl]
    rw [he]
    cases kind with
    | display => exact ⟨rfl, h.diagnostic_eq_none (by simp [hl]), rfl⟩
    | diagnostic => exact ⟨h.display_eq_none (by simp [hl]), rfl, rfl⟩

theorem createDisplay_page (h : Mirrors b m) (size : UInt32 × UInt32) :
    (b.replay (m.createDisplay size).effects).display = some size ∧
    (b.replay (m.createDisplay size).effects).diagnostic = none ∧
    (b.replay (m.createDisplay size).effects).banner = b.banner := by
  have he : (m.createDisplay size).effects =
      m.clear.effects ++ [.surface (.mountDisplay size.1 size.2)] := rfl
  rw [he, Headless.replay_append]
  exact ⟨rfl, h.clear_page.2⟩

theorem renderFault_page (h : Mirrors b m) (f : Fault) :
    (b.replay (m.renderFault f).effects).display = none ∧
    (b.replay (m.renderFault f).effects).diagnostic = some f.banner ∧
    (b.replay (m.renderFault f).effects).banner = b.banner := by
  have he : (m.renderFault f).effects =
      m.clear.effects ++ [.surface (.mountDiagnostic f.banner)] := rfl
  rw [he, Headless.replay_append]
  exact ⟨h.clear_page.1, rfl, h.clear_page.2.2⟩

theorem removeBanner_page (h : Mirrors b m) :
    (b.replay m.removeBanner.effects).display = b.display ∧
    (b.replay m.removeBanner.effects).diagnostic = b.diagnostic ∧
    (b.replay m.removeBanner.effects).banner = none := by
  cases hs : m.bannerShown with
  | true =>
    have he : m.removeBanner.effects = [.surface .unmountBanner] := by
      simp [Manager.removeBanner, hs]
    rw [he]
    exact ⟨rfl, rfl, rfl⟩
  | false =>
    have he : m.removeBanner.effects = [] := by
      simp [Manager.removeBanner, hs, Manager.unchanged]
    rw [he]
    exact ⟨rfl, rfl, h.banner_eq_none hs⟩

theorem showBanner_page (v : String) :
    (b.replay (m.showBanner v).effects).display = b.display ∧
    (b.replay (m.showBanner v).effects).diagnostic = b.diagnostic := by
  unfold Manager.showBanner
  split <;> exact ⟨rfl, rfl⟩

theorem clear (h : Mirrors b m) : Mirrors (b.replay m.clear.effects) m.clear.manager :=
  of_page h.clear_page (by simp) (by simp) (by simpa using h.banner)

theorem createDisplay (h : Mirrors b m) (size : UInt32 × UInt32) :
    Mirrors (b.replay (m.createDisplay size).effects) (m.createDisplay size).manager :=
  of_page (h.createDisplay_page size) (by simp) (by simp) (by simpa using h.banner)

theorem renderFault (h : Mirrors b m) (f : Fault) :
    Mirrors (b.replay (m.renderFault f).effects) (m.renderFault f).manager :=
  of_page (h.renderFault_page f) (by simp) (by simp) (by simpa using h.banner)

theorem removeBanner (h : Mirrors b m) :
    Mirrors (b.replay m.removeBanner.effects) m.removeBanner.manager :=
  of_page h.removeBanner_page (by simpa using h.display) (by simpa using h.diagnostic) (by simp)

theorem showBanner (h : Mirrors b m) (v : String) :
    Mirrors (b.replay (m.showBanner v).effects) (m.showBanner v).manager := by
  have hp := showBanner_page (b := b) (m := m) v
  refine of_page ⟨hp.1, hp.2, rfl⟩ (by simpa using h.display) (by simpa using h.diagnostic) ?_
  cases hs : m.bannerShown with
  | true =>
    have he : (m.showBanner v).effects = [] := by
      simp [Manager.showBanner, hs, Manager.unchanged]
    simpa [he] using h.banner.mpr hs
  | false =>
    have he : (m.showBanner v).effects = [.surface (.mountBanner (splashText v))] := by
      simp [Manager.showBanner, hs]
    simp [he, Headless.perform]

theorem bound :
    Mirrors (Headless.new.replay Manager.new.bindCapture.effects)
      Manager.new.bindCapture.manager := by
  constructor <;> simp [Manager.new, Manager.bindCapture, Headless.new, Headless.perform]

end Mirrors

end Chip8Frame.Surface
