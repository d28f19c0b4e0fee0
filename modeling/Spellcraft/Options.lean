import Spellcraft.Parameters

/-! # Cast options

A cast has five flags. Their defaults come from the source of the cast — what it is cast from —
and a parameter named like a flag and holding a truth value overrides that flag alone.
-/

namespace Spellcraft

inductive CastSource where
  | spellbook
  | scroll
  | sword
  | command
  | mob
  | none
  deriving DecidableEq

inductive CastFlag where
  | consumeMana
  | triggerCooldown
  | playEffects
  | bypassConditions
  | showCastBar
  deriving DecidableEq

structure CastOptions where
  consumeMana : Bool := false
  triggerCooldown : Bool := false
  playEffects : Bool := false
  bypassConditions : Bool := false
  showCastBar : Bool := false
  deriving DecidableEq

namespace CastFlag

def all : List CastFlag :=
  [.consumeMana, .triggerCooldown, .playEffects, .bypassConditions, .showCastBar]

def key : CastFlag → String
  | .consumeMana => "consumeMana"
  | .triggerCooldown => "triggerCooldown"
  | .playEffects => "playEffects"
  | .bypassConditions => "bypassConditions"
  | .showCastBar => "showCastBar"

def ofKey? (key : String) : Option CastFlag := all.find? fun flag => flag.key == key

def bit : CastFlag → Nat
  | .consumeMana => 1
  | .triggerCooldown => 2
  | .playEffects => 4
  | .bypassConditions => 8
  | .showCastBar => 16

/-- The default that usage text gives. It is never filled in: what counts is the source. -/
def documentedDefault : CastFlag → Bool
  | .triggerCooldown | .playEffects => true
  | .consumeMana | .bypassConditions | .showCastBar => false

def description : CastFlag → String
  | .consumeMana => "Whether to consume mana"
  | .triggerCooldown => "Whether to trigger the cooldown"
  | .playEffects => "Whether to play cast effects"
  | .bypassConditions => "Whether to skip cast conditions"
  | .showCastBar => "Whether to show the cast bar"

end CastFlag

namespace CastOptions

def get (o : CastOptions) : CastFlag → Bool
  | .consumeMana => o.consumeMana
  | .triggerCooldown => o.triggerCooldown
  | .playEffects => o.playEffects
  | .bypassConditions => o.bypassConditions
  | .showCastBar => o.showCastBar

def set (o : CastOptions) (flag : CastFlag) (enabled : Bool) : CastOptions :=
  match flag with
  | .consumeMana => { o with consumeMana := enabled }
  | .triggerCooldown => { o with triggerCooldown := enabled }
  | .playEffects => { o with playEffects := enabled }
  | .bypassConditions => { o with bypassConditions := enabled }
  | .showCastBar => { o with showCastBar := enabled }

@[simp] theorem get_set_self (o : CastOptions) (flag : CastFlag) (enabled : Bool) :
    (o.set flag enabled).get flag = enabled := by
  cases flag <;> rfl

theorem get_set_of_ne (o : CastOptions) {flag other : CastFlag} (enabled : Bool)
    (h : other ≠ flag) : (o.set flag enabled).get other = o.get other := by
  cases flag <;> cases other <;> first | rfl | exact absurd rfl h

def bits (o : CastOptions) : Nat :=
  CastFlag.all.foldl (fun bits flag => if o.get flag then bits + flag.bit else bits) 0

/-- The starting point for options put together by hand: only effects are played. -/
def handmade : CastOptions := { playEffects := true }

def setAll (o : CastOptions) (settings : List (CastFlag × Bool)) : CastOptions :=
  settings.foldl (fun o s => o.set s.1 s.2) o

end CastOptions

namespace CastSource

def all : List CastSource := [.spellbook, .scroll, .sword, .command, .mob, .none]

def name : CastSource → String
  | .spellbook => "spellbook"
  | .scroll => "scroll"
  | .sword => "sword"
  | .command => "command"
  | .mob => "mob"
  | .none => "none"

def ofName? (text : String) : Option CastSource :=
  all.find? fun source => source.name == asciiLower text

def options : CastSource → CastOptions
  | .spellbook | .sword =>
    { consumeMana := true, triggerCooldown := true, playEffects := true, showCastBar := true }
  | .scroll | .mob => { playEffects := true }
  | .command => { playEffects := true, bypassConditions := true }
  | .none => {}

end CastSource

namespace CastOptions

def overrideFlag (params : Parameters) (o : CastOptions) (flag : CastFlag) : CastOptions :=
  match params.bool? flag.key with
  | some enabled => o.set flag enabled
  | none => o

def ofParameters (source : CastSource) (params : Parameters) : CastOptions :=
  CastFlag.all.foldl (overrideFlag params) source.options

end CastOptions

end Spellcraft
