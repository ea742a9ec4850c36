import Mathlib
import Chip8Frame.Proofs.Boots

/-! Restarts on an unchanged page. A restart is sized for the element around the document if there
is one, and so is a boot from its attributes. A boot from a message is sized for the window, so its
restart can have another size although nothing on the page has changed. -/

namespace Chip8Frame.Boot

def Config.resize (c : Config) (w : Binary64) (v : Variant) : Config :=
  { c with pixelSize := Boot.pixelSize w v, variant := v }

theorem Parameters.resolve_resize (p : Parameters) (w w' : Binary64) (o : Options) :
    p.resolve w' o = (p.resolve w o).map (·.resize w' o.variant) := by
  unfold Parameters.resolve
  cases filled? p.program with
  | none => rfl
  | some program =>
    cases required p.speed Parameters.speedAttribute with
    | error e => rfl
    | ok text =>
      simp only [bind, Except.bind]
      cases readSpeed text with
      | error e => rfl
      | ok speed =>
        cases required p.foreground Parameters.foregroundAttribute with
        | error e => rfl
        | ok foreground => cases required p.background Parameters.backgroundAttribute <;> rfl

section Resize

variable {c : Config} {w : Binary64} {v : Variant}

theorem Config.resize_eq {p : Parameters} {o : Options} (h : p.resolve w o = .ok c) :
    c.resize w o.variant = c := by
  have hr := p.resolve_resize w w o
  rw [h] at hr
  exact (Except.ok.inj hr).symm

theorem Config.resize_variant {p : Parameters} {o : Options} (h : p.resolve w o = .ok c) :
    o.variant = c.variant :=
  congrArg Config.variant (resize_eq h)

theorem Config.resize_same :
    (c.resize w c.variant).arguments.toList = c.arguments.toList ∧
        (c.resize w c.variant).displaySize = c.displaySize ↔
      Boot.pixelSize w c.variant = c.pixelSize := by
  constructor
  · rintro ⟨ha, -⟩
    have hn : toString (Boot.pixelSize w c.variant).toInt = toString c.pixelSize.toInt := by
      simpa [Config.resize, Config.arguments, Arguments.toList] using ha
    exact Int32.toInt_inj.mp (Int.repr_injective hn)
  · intro hp
    have hc : c.resize w c.variant = c := by simp only [Config.resize, hp]
    rw [hc]
    exact ⟨rfl, rfl⟩

end Resize

end Chip8Frame.Boot

namespace Chip8Frame.Browser

open Host (Session)

namespace Frame

/-- The guest in flight was given the arguments of this boot, and its display was reserved. -/
structure Fitted (f : Frame) (a : Accepted) : Prop where
  argv : ∀ n url, .loading n url ∈ f.tasks → f.argv n = some a.argv
  display : .running ∈ f.tasks → ∃ b, f.bridge = some b ∧ b.surface.display = some a.display

/-- A boot again on the same page: it repeats the request, and its size is the same exactly where
the boot was not sized for the window or the element is as wide in pixels. -/
structure Repeats (y x : Accepted) : Prop where
  command : y.command = .restart
  geometry : y.geometry = x.geometry
  request : y.request = x.request
  same : y.argv = x.argv ∧ y.display = x.display ↔
    (∀ m, x.command ≠ .message m) ∨
      Boot.pixelSize x.geometry.current x.config.variant =
        Boot.pixelSize x.geometry.window x.config.variant

section Restart

variable {p : Opening} {h : List Happening} {x : Accepted} {xs : List Accepted}

theorem boots_fitted (hb : boots p h = x :: xs) : (after p h).Fitted x := by
  have ho := after_orderly p h
  have hconfig : ∀ {b fl}, (after p h).bridge = some b → b.session.flight = some fl →
      fl.config = x.config := by
    intro b fl hbr hf
    obtain ⟨a, ha, hc⟩ := (after_books hbr).flight fl hf
    rw [hb] at ha
    obtain rfl := Option.some.inj ha
    exact hc
  refine ⟨fun n url ht => ?_, fun ht => ?_⟩
  · obtain ⟨b, fl, hbr, hf, -, ha⟩ := ho.served _ ht rfl
    rw [ha, hconfig hbr hf]
    rfl
  · obtain ⟨b, fl, hbr, hf, hst⟩ := ho.served _ ht rfl
    refine ⟨b, hbr, ?_⟩
    rw [ho.shown b hbr fl hf (by simp [hst]), hconfig hbr hf]
    rfl

theorem Repeating.request {rs : List Accepted} (hr : Repeating (rs ++ x :: xs))
    (hrs : ∀ r ∈ rs, r.command = .restart) :
    (rs ++ x :: xs).head?.map Accepted.request = some x.request := by
  induction rs with
  | nil => rfl
  | cons r rs ih =>
    have hrest := ih hr.2 fun s hs => hrs s (List.mem_cons_of_mem _ hs)
    rw [← hrest]
    exact (hr.1 (hrs r List.mem_cons_self)).symm

theorem Geometry.current_iff (g : Geometry) (c : Host.Command) (v : Boot.Variant) :
    Boot.pixelSize g.current v = Boot.pixelSize (g.widthFor c) v ↔
      (∀ m, c ≠ .message m) ∨ Boot.pixelSize g.current v = Boot.pixelSize g.window v := by
  cases c with
  | message m => simp [Geometry.widthFor]
  | _ => simp [Geometry.widthFor]

theorem restart_accepted {rs : List Accepted} (hb : boots p h = rs ++ x :: xs)
    (hrs : ∀ r ∈ rs, r.command = .restart) (hl : (after p h).locked = false) {i : Nat}
    {g : Geometry} {w : Binary64} (hi : (queue p h)[i]? = some (g, .command .restart w)) :
    boots p (.turn i :: h) =
      ⟨g, .restart, x.request, x.config.resize g.current x.config.variant⟩ :: boots p h := by
  have hmem : x ∈ boots p h := by simp [hb]
  obtain ⟨b, hbr, hbooks⟩ := books_of_mem hmem
  have hx := hbooks.resolved x hmem
  have hr : b.session.requestOf .restart = some x.request := by
    have hrep := hbooks.repeating
    rw [hb] at hrep
    exact (hbooks.target.trans (by rw [hb])).trans (hrep.request hrs)
  have hw : w = g.current := queue_width (List.mem_of_getElem? hi) rfl
  have hc : x.request.parameters.resolve w b.session.context.options =
      .ok (x.config.resize g.current x.config.variant) := by
    rw [Boot.Parameters.resolve_resize _ (x.geometry.widthFor x.command) w, hx, hw,
      Boot.Config.resize_variant hx]
    rfl
  simp only [boots, accepted?, hl, hbr, hi, Session.attempt?_of_resolve hr hc,
    ready_of_unlocked hl hbr, if_true]
  rfl

theorem boots_pixelSize (hx : x ∈ boots p h) :
    Boot.pixelSize (x.geometry.widthFor x.command) x.config.variant = x.config.pixelSize := by
  obtain ⟨b, -, hbooks⟩ := books_of_mem hx
  have hres := hbooks.resolved x hx
  have hs := congrArg Boot.Config.pixelSize (Boot.Config.resize_eq hres)
  rwa [Boot.Config.resize_variant hres] at hs

/-- A restart on the page of an earlier boot, with restarts only in between. -/
theorem restart_size {rs : List Accepted} (hb : boots p h = rs ++ x :: xs)
    (hrs : ∀ r ∈ rs, r.command = .restart) (hl : (after p h).locked = false) {i : Nat}
    {w : Binary64} (hi : (queue p h)[i]? = some (x.geometry, .command .restart w)) :
    ∃ y, boots p (.turn i :: h) = y :: boots p h ∧ Repeats y x ∧
      (∀ later, boots p (later ++ .turn i :: h) = y :: boots p h →
        (after p (later ++ .turn i :: h)).Fitted y) ∧
      ∀ earlier, boots p earlier = x :: xs → (after p earlier).Fitted x := by
  refine ⟨_, restart_accepted hb hrs hl hi, ⟨rfl, rfl, rfl, ?_⟩, fun _ => boots_fitted,
    fun _ => boots_fitted⟩
  have hp := boots_pixelSize (by simp [hb] : x ∈ boots p h)
  have hsame := Boot.Config.resize_same (c := x.config) (w := x.geometry.current)
  rw [← hp] at hsame
  exact hsame.trans (Geometry.current_iff x.geometry x.command x.config.variant)

end Restart

def Sample.framed : Opening :=
  { realm := { Realm.empty with
      body := some (.mk (Node.new 0 "body") [])
      frame := some (.mk ((Node.new 1 "iframe").setAttribute "width" "640") [])
      innerWidth := .number (.ofInt 1024) }
    runtime := .scripted
    scripts := [{ GuestScript.plain with
      atRun := [.exit none (.number (.ofInt 0))]
      returned := .value }]
    unheard := rfl
    unclosed := rfl }

def Sample.pong : Value :=
  .object [("bgColour", .string "0"), ("fgColour", .string "1"), ("programName", .string "PONG"),
    ("speed", .string "10")]

def Sample.played : List Happening :=
  [.turn 0, .turn 0, .act (.message Sample.pong), .listen .undefined]

def Sample.boot : Accepted where
  geometry := ⟨some ⟨true, some "640", 0⟩, .ofInt 1024⟩
  command := .message (Session.Sample.parameters "PONG")
  request := ⟨.message, Session.Sample.parameters "PONG"⟩
  config := ⟨"PONG", "roms/PONG", 10, 16, "1", "0", .chip8⟩

theorem Sample.played_boots :
    boots Sample.framed (.restart :: Sample.played) = [] ++ [Sample.boot] := rfl

theorem Sample.played_unlocked :
    (after Sample.framed (.restart :: Sample.played)).locked = false := by decide +kernel

theorem Sample.played_queue :
    ∃ w, (queue Sample.framed (.restart :: Sample.played))[0]? =
      some (Sample.boot.geometry, .command .restart w) := by
  have hb : (after Sample.framed Sample.played).bridge.isSome = true := by decide +kernel
  have hw : (after Sample.framed Sample.played).realm.hasWindow = true := by decide +kernel
  have hq : (queue Sample.framed Sample.played).length = 0 := by decide +kernel
  have hg : (after Sample.framed Sample.played).realm.geometry = Sample.boot.geometry := by
    decide +kernel
  rw [queue_restart hb hw, List.length_eq_zero_iff.mp hq, hg]
  exact ⟨_, rfl⟩

theorem Sample.sizes_differ :
    Boot.pixelSize Sample.boot.geometry.current .chip8 = 10 ∧
      Boot.pixelSize Sample.boot.geometry.window .chip8 = 16 := by decide +kernel

theorem restart_size_of_message :
    ∃ y, boots Sample.framed (.turn 0 :: .restart :: Sample.played) = [y, Sample.boot] ∧
      Repeats y Sample.boot ∧ ¬ (y.argv = Sample.boot.argv ∧ y.display = Sample.boot.display) := by
  obtain ⟨w, hi⟩ := Sample.played_queue
  obtain ⟨y, hy, hr, -⟩ := restart_size Sample.played_boots (by simp) Sample.played_unlocked hi
  refine ⟨y, hy, hr, fun hs => ?_⟩
  obtain ⟨hc, hw⟩ := Sample.sizes_differ
  rcases hr.same.mp hs with hm | hp
  · exact hm _ rfl
  · have hx : (10 : Int32) = 16 := hc.symm.trans (hp.trans hw)
    revert hx
    decide

/-- A restart on an unchanged page can give the guest another pixel size. -/
theorem restart_resized :
    ¬ ∀ p h i x xs w, boots p h = x :: xs → x.command ≠ .restart →
      (after p h).locked = false →
      (queue p h)[i]? = some (x.geometry, .command .restart w) →
        ∃ y, boots p (.turn i :: h) = y :: boots p h ∧ y.argv = x.argv ∧ y.display = x.display := by
  intro hn
  obtain ⟨w, hi⟩ := Sample.played_queue
  obtain ⟨y, hy, hs⟩ := hn Sample.framed (.restart :: Sample.played) 0 Sample.boot [] w
    Sample.played_boots (by simp [Sample.boot]) Sample.played_unlocked hi
  have hagain := restart_accepted Sample.played_boots (by simp) Sample.played_unlocked hi
  obtain rfl := (List.cons.inj (hy.symm.trans hagain)).1
  obtain ⟨hc, -⟩ := Sample.sizes_differ
  have hx : (10 : Int32) = 16 := hc.symm.trans (Boot.Config.resize_same.mp hs)
  revert hx
  decide

end Frame

end Chip8Frame.Browser
