import Chip8Frame.Proofs.DisplaySize
import Chip8Frame.Proofs.LaunchOrder
import Chip8Frame.Proofs.SignedDecimal

/-! The texts that a guest is started with, read by their places. Nothing is lost in them: each
list of arguments is read back from its texts, at the ends of the word ranges too. The pixel size
among them is the one that the display of the same boot is mounted with. -/

namespace Chip8Frame.Boot

open Text (readUInt32? readInt32?)

namespace Arguments

def readBool? (text : String) : Option Bool :=
  if text = boolText true then some true
  else if text = boolText false then some false
  else none

/-- A flag at the second place, a speed at the third and a pixel size at the fourth; the other
texts are taken as they are. -/
def ofList? : List String → Option Arguments
  | [path, debug, speed, pixelSize, foreground, background] => do
      return {
        path
        debug := ← readBool? debug
        speed := ← readUInt32? speed
        pixelSize := ← readInt32? pixelSize
        foreground
        background }
  | _ => none

theorem readBool?_boolText (b : Bool) : readBool? (boolText b) = some b := by
  cases b <;> decide

theorem ofList?_toList (a : Arguments) : ofList? a.toList = some a := by
  simp only [toList, ofList?, readBool?_boolText, Text.readUInt32?_toString,
    Text.readInt32?_toString, Option.bind_eq_bind, Option.bind_some]
  rfl

theorem toList_injective : Function.Injective toList := by
  intro a b h
  have hread : some a = some b := by rw [← ofList?_toList, h, ofList?_toList]
  exact Option.some.inj hread

end Arguments

def extent (cells : Nat) (pixelSize : Int32) : ℤ := min (cells * max pixelSize.toInt 0) (2 ^ 32 - 1)

/-- What the texts say that a guest gets for a configuration. -/
structure Config.Told (c : Config) : Prop where
  count : c.arguments.toList.length = Arguments.count
  debug : c.arguments.toList[1]? = some "false"
  decoded : ∃ a, Arguments.ofList? c.arguments.toList = some a ∧ a.path = c.path ∧
    1 ≤ a.speed.toNat ∧ a.pixelSize = c.pixelSize ∧
      c.Mounts (extent c.variant.columns a.pixelSize) (extent c.variant.rows a.pixelSize)

theorem told_of_resolve {p : Parameters} {w : Binary64} {o : Options} {c : Config}
    (h : p.resolve w o = .ok c) : c.Told where
  count := rfl
  debug := rfl
  decoded := by
    obtain ⟨-, -, -, hpos⟩ := (holds_of_resolve h).speed
    exact ⟨c.arguments, Arguments.ofList?_toList _, rfl, hpos, rfl, c.mounts_displaySize⟩

theorem Config.Mounts.displaySize {c : Config} {width height : ℤ} (h : c.Mounts width height) :
    (c.displaySize.1.toNat : ℤ) = width ∧ (c.displaySize.2.toNat : ℤ) = height := by
  obtain ⟨w, h, hlast, hw, hh⟩ := h .new
  simp only [Surface.Operation.change, Surface.Manager.createDisplay, Surface.calls_append,
    Surface.calls_surface, Surface.calls_nil, List.getLast?_append, List.getLast?_singleton,
    Option.some_or, Option.some.injEq, Surface.Call.mountDisplay.injEq] at hlast
  obtain ⟨rfl, rfl⟩ := hlast
  exact ⟨hw, hh⟩

end Chip8Frame.Boot

namespace Chip8Frame.Host.Session

open Boot (Arguments extent)

/-- The display that comes up when `e` has an entry point called has the size that is in the texts
of the newest launch. -/
def SizedAsTold (o : Boot.Options) (e : Event) (es : List Event) : Prop :=
  ∃ l rest a width height, launches o es = l :: rest ∧
    Arguments.ofList? l.arguments.toList = some a ∧
    ((after o es).next e).effects = [.surface (.mountDisplay width height)] ∧
    (width.toNat : ℤ) = extent o.variant.columns a.pixelSize ∧
    (height.toNat : ℤ) = extent o.variant.rows a.pixelSize

theorem sized_as_told {o : Boot.Options} {e : Event} {es : List Event} (h : Possible o (e :: es))
    (hp : ((after o es).next e).progress = .start) : SizedAsTold o e es := by
  obtain ⟨a, -, hstart⟩ := at_start h hp
  obtain ⟨w, c, pre, -, hlaunches, -, hlaunch⟩ := hstart.launched
  obtain ⟨_, _, -, -, hresolve⟩ := hlaunch.resolved
  have hvariant : a.config.variant = o.variant := (Boot.holds_of_resolve hresolve).variant
  obtain ⟨hwidth, hheight⟩ := a.config.mounts_displaySize.displaySize
  rw [hvariant] at hwidth hheight
  exact ⟨_, _, _, _, _, hlaunches, Arguments.ofList?_toList _, hstart.mounted, hwidth, hheight⟩

end Chip8Frame.Host.Session

namespace Chip8Frame.Boot

open Host (Session)

/-- What the positional texts are worth, for all arguments, for all that is resolved and for every
boot that comes to its entry point. -/
structure Positional : Prop where
  decoded : ∀ a : Arguments, Arguments.ofList? a.toList = some a
  injective : Function.Injective Arguments.toList
  told : ∀ {p : Parameters} {w : Binary64} {o : Options} {c : Config},
    p.resolve w o = .ok c → c.Told
  mounted : ∀ {o : Options} {e : Session.Event} {es : List Session.Event},
    Session.Possible o (e :: es) → ((Session.after o es).next e).progress = .start →
      Session.SizedAsTold o e es

theorem positional : Positional where
  decoded := Arguments.ofList?_toList
  injective := Arguments.toList_injective
  told := told_of_resolve
  mounted := Session.sized_as_told

def Sample.extreme : Config :=
  { program := "PONG"
    path := "roms/PONG"
    speed := 4294967295
    pixelSize := -2147483648
    foreground := "1"
    background := "0"
    variant := .chip8 }

theorem Sample.extreme_resolved :
    Sample.extreme.parameters.resolve (.infinite true) .default = .ok Sample.extreme := rfl

theorem positional_of_extreme :
    (Sample.extreme.parameters.resolve (.infinite true) .default = .ok Sample.extreme ∧
      Sample.extreme.arguments.toList =
        ["roms/PONG", "false", "4294967295", "-2147483648", "1", "0"] ∧ Sample.extreme.Told) ∧
    Session.Possible .default [.launched (.ok ()), Session.Sample.request "PONG"] ∧
      Session.SizedAsTold .default (.launched (.ok ())) [Session.Sample.request "PONG"] := by
  have hp : Session.Possible .default [.launched (.ok ()), Session.Sample.request "PONG"] := by
    decide +kernel
  exact ⟨⟨Sample.extreme_resolved, by decide +kernel, positional.told Sample.extreme_resolved⟩,
    hp, positional.mounted hp rfl⟩

end Chip8Frame.Boot
