import Spellcraft.Catalog.Book

/-! # Scripted spells

A scripted spell answers every hook as its script says and records what it saw. It takes the
place of a real spell where the course of a cast itself is of interest.

A grimoire holds the spells of a book together with scripted spells; the book comes first.
-/

namespace Spellcraft

/-- What the effect of a scripted spell does, in this order: change the mana, reset the caster,
    overwrite the live configuration, and end. -/
structure EffectScript where
  mana? : Option Int32 := none
  reset : Bool := false
  config? : Option SpellConfig := none
  result : EffectResult := .done

inductive Sighting where
  | attempt (level : UInt32) (source : CastSource) (mana : Int32)
  | admission (level : UInt32) (source : CastSource) (mana : Int32)
  | precondition (level : UInt32) (mana : Int32)
  | effect (level : UInt32) (source : CastSource) (config : SpellConfig) (params : Parameters)
      (mana : Int32) (casting : Bool)
  | complete (level : UInt32) (mana : Int32) (config : SpellConfig)

structure HookScript where
  manaMultiplier : Binary64 := Binary.ofInt .double 1
  castTime? : Option Int32 := none
  admission : Admission := .allowed
  precondition : Bool := true

/-- A spell that follows a script. Without `hooks` it has only what every spell must have. -/
structure ScriptedSpell where
  id : String
  name : String
  schema : Schema
  live : SpellConfig
  parameterized : Bool := true
  accepts : Bool := true
  defaultTicks : Int32 := 0
  hooks? : Option HookScript := some {}
  effect : EffectScript := {}
  seen : List Sighting := []

namespace ScriptedSpell

def record (s : ScriptedSpell) (sighting : Sighting) : ScriptedSpell :=
  { s with seen := s.seen ++ [sighting] }

def recordOptional (s : ScriptedSpell) (sighting : Sighting) : ScriptedSpell :=
  if s.hooks?.isSome then s.record sighting else s

def script (s : ScriptedSpell) : HookScript := s.hooks?.getD {}

def runEffect (level : UInt32) (source : CastSource) (params : Parameters) :
    Hook ScriptedSpell EffectResult := fun s caster =>
  let s := s.record (.effect level source s.live params caster.mana caster.isCasting)
  let caster := match s.effect.mana? with
    | some mana => caster.setMana mana
    | none => caster
  let caster := if s.effect.reset then caster.reset else caster
  let live := s.effect.config?.getD s.live
  ⟨s.effect.result, { s with live }, caster, []⟩

instance : Castable ScriptedSpell where
  id s := s.id
  name s := s.name
  attempt level source s caster :=
    ⟨s.accepts, s.record (.attempt level source caster.mana), caster, []⟩
  isParameterized s := s.parameterized
  schema s := s.schema
  config s := s.live
  setConfig s config := { s with live := config }
  defaultTicks s := s.defaultTicks
  manaMultiplier s := s.script.manaMultiplier
  castTime _ s _ := s.script.castTime?.getD s.live.castTime
  admission level source s caster :=
    ⟨s.script.admission, s.recordOptional (.admission level source caster.mana), caster, []⟩
  precondition level s caster :=
    ⟨s.script.precondition, s.recordOptional (.precondition level caster.mana), caster, []⟩
  effect := runEffect
  complete level _ s caster :=
    ⟨(), s.recordOptional (.complete level caster.mana s.live), caster, []⟩

instance : LawfulCastable ScriptedSpell where
  config_setConfig _ _ := rfl

end ScriptedSpell

inductive GrimoireSpell where
  | catalog (spell : CatalogSpell)
  | scripted (spell : ScriptedSpell)

namespace GrimoireSpell

/-- A hook that acts inside one of the two alternatives. -/
def within {S α : Type} (wrap : S → GrimoireSpell) (hook : Hook S α) (spell : S)
    (caster : Caster) : HookReply GrimoireSpell α :=
  let reply := hook spell caster
  ⟨reply.answer, wrap reply.spell, reply.caster, reply.notices⟩

instance : Castable GrimoireSpell where
  id
    | .catalog s => Castable.id s
    | .scripted s => Castable.id s
  name
    | .catalog s => Castable.name s
    | .scripted s => Castable.name s
  attempt level source
    | .catalog s => within .catalog (Castable.attempt level source) s
    | .scripted s => within .scripted (Castable.attempt level source) s
  isParameterized
    | .catalog s => Castable.isParameterized s
    | .scripted s => Castable.isParameterized s
  schema
    | .catalog s => Castable.schema s
    | .scripted s => Castable.schema s
  config
    | .catalog s => Castable.config s
    | .scripted s => Castable.config s
  setConfig
    | .catalog s, config => .catalog (Castable.setConfig s config)
    | .scripted s, config => .scripted (Castable.setConfig s config)
  defaultTicks
    | .catalog s => Castable.defaultTicks s
    | .scripted s => Castable.defaultTicks s
  manaMultiplier
    | .catalog s => Castable.manaMultiplier s
    | .scripted s => Castable.manaMultiplier s
  castTime level
    | .catalog s => Castable.castTime level s
    | .scripted s => Castable.castTime level s
  admission level source
    | .catalog s => within .catalog (Castable.admission level source) s
    | .scripted s => within .scripted (Castable.admission level source) s
  precondition level
    | .catalog s => within .catalog (Castable.precondition level) s
    | .scripted s => within .scripted (Castable.precondition level) s
  effect level source params
    | .catalog s => within .catalog (Castable.effect level source params) s
    | .scripted s => within .scripted (Castable.effect level source params) s
  complete level source
    | .catalog s => within .catalog (Castable.complete level source) s
    | .scripted s => within .scripted (Castable.complete level source) s

instance : LawfulCastable GrimoireSpell where
  config_setConfig spell config := by cases spell <;> rfl

end GrimoireSpell

structure Grimoire where
  book : SpellBook := .empty
  scripted : List ScriptedSpell := []

namespace Grimoire

def find? (g : Grimoire) (id : String) : Option GrimoireSpell :=
  match g.book.find? id with
  | some spell => some (.catalog spell)
  | none => (g.scripted.find? fun s => s.id == id).map .scripted

def replaceScripted (id : String) (spell : ScriptedSpell) :
    List ScriptedSpell → List ScriptedSpell
  | [] => []
  | s :: rest => if s.id = id then spell :: rest else s :: replaceScripted id spell rest

def replace (g : Grimoire) (id : String) : GrimoireSpell → Grimoire
  | .catalog spell => { g with book := Registry.replace g.book id spell }
  | .scripted spell => { g with scripted := replaceScripted id spell g.scripted }

def ids (g : Grimoire) : List String := g.book.ids ++ g.scripted.map ScriptedSpell.id

instance : Registry Grimoire GrimoireSpell where
  find? := find?
  replace := replace
  ids := ids

end Grimoire

end Spellcraft
