import Spellcraft.Catalog.Definition
import Spellcraft.Content
import Spellcraft.Ron.Document

/-! # Catalogs in files

A catalog is a RON document: the list of its spells. Kinds, values, tags and effects are variants
with names of their own; what a definition leaves out has the default that its type gives.

The numbers of a spell are written all six or not at all, and its ids are pairwise distinct.
-/

namespace Spellcraft

/-! ## Kinds, tags and values -/

namespace Kind

def variant : Kind → String
  | .int => "Int"
  | .float => "Float"
  | .double => "Double"
  | .string => "String"
  | .boolean => "Boolean"
  | .vec3 => "Vec3"
  | .uuid => "Uuid"
  | .entitySelector => "EntitySelector"
  | .dimension => "Dimension"

def ofRon? : Ron → Option Kind
  | .atom text => all.find? fun kind => kind.variant == text
  | _ => none

end Kind

def Ron.toInt32? (value : Ron) : Option Int32 :=
  (value.toInt? (.signed "i32" 32)).map Int32.ofInt

def Vec3.ofRon? (value : Ron) : Option Vec3 := do
  let entries ← value.toFields? "Vec3"
  let coordinate (name : String) := Ron.required entries name (Ron.toFloat? .double)
  return ⟨← coordinate "x", ← coordinate "y", ← coordinate "z"⟩

def Compound.ofRon? (tag : Ron → Option Tag) (value : Ron) : Option Compound := do
  let pairs ← value.toPairs?
  return Entries.ofList (← pairs.mapM fun p => (tag p.2).map (p.1, ·))

/-- Reads a tag with at most `depth` compounds around the innermost value. -/
def Tag.ofRon? : Nat → Ron → Option Tag
  | 0, _ => none
  | depth + 1, value => do
    let (variant, content) ← value.toVariant?
    match variant with
    | "Byte" => (content.toInt? (.signed "i8" 8)).map fun i => .byte (Int8.ofInt i)
    | "Int" => content.toInt32?.map .int
    | "Long" => (content.toInt? (.signed "i64" 64)).map fun i => .long (Int64.ofInt i)
    | "Float" => (content.toFloat? .single).map .float
    | "Double" => (content.toFloat? .double).map .double
    | "String" => content.toString?.map .string
    | "IntArray" => do
      let items ← content.toList?
      return .intArray (← items.mapM Ron.toInt32?)
    | "Compound" => (Compound.ofRon? (ofRon? depth) content).map .compound
    | _ => none

def Value.ofRon? (value : Ron) : Option Value := do
  let (variant, content) ← value.toVariant?
  match variant with
  | "Int" => content.toInt32?.map .int
  | "Float" => (content.toFloat? .single).map .float
  | "Double" => (content.toFloat? .double).map .double
  | "Boolean" => content.toBool?.map .boolean
  | "String" => content.toString?.map .string
  | "Vec3" => (Vec3.ofRon? content).map .vec3
  | "Uuid" => (content.toString?.bind Uuid.parseAny?).map .uuid
  | "EntitySelector" => content.toString?.map .entitySelector
  | "Dimension" => content.toString?.map .dimension
  | "Compound" => (Compound.ofRon? (Tag.ofRon? Ron.maxDepth) content).map .compound
  | _ => none

/-! ## Definitions -/

def SpellConfig.ofRon? (value : Ron) : Option SpellConfig := do
  let entries ← value.toFields? "SpellParameterConfig"
  let int (name : String) := Ron.required entries name Ron.toInt32?
  return {
    baseManaCost := ← int "base_mana_cost"
    manaCostPerLevel := ← int "mana_cost_per_level"
    baseSpellPower := ← int "base_spell_power"
    spellPowerPerLevel := ← int "spell_power_per_level"
    castTime := ← int "cast_time"
    cooldown := ← Ron.required entries "cooldown" (Ron.toFloat? .double) }

def FieldSpec.ofRon? (value : Ron) : Option FieldSpec := do
  let entries ← value.toFields? "FieldSpec"
  return {
    name := ← Ron.required entries "name" Ron.toString?
    kind := ← Ron.required entries "kind" Kind.ofRon?
    required := ← Ron.optional entries "required" false Ron.toBool?
    default? := ← Ron.nullable entries "default" Value.ofRon?
    description := ← Ron.optional entries "description" "" Ron.toString?
    aliases := ← Ron.optional entries "aliases" [] fun list =>
      list.toList?.bind (·.mapM Ron.toString?) }

def SpellEffect.ofRon? (value : Ron) : Option SpellEffect :=
  match value with
  | .atom "Projectile" => some .projectile
  | .atom "ManaSurge" => some .manaSurge
  | .fields (some "Blink") entries =>
    (Ron.required entries "max_distance" (Ron.toFloat? .double)).map .blink
  | _ => none

def SpellDefinition.ofRon? (value : Ron) : Option SpellDefinition := do
  let entries ← value.toFields? "SpellDefinition"
  return {
    id := ← Ron.required entries "id" Ron.toString?
    name := ← Ron.required entries "name" Ron.toString?
    parameterized := ← Ron.optional entries "parameterized" true Ron.toBool?
    defaults := ← Ron.optional entries "defaults" .zero SpellConfig.ofRon?
    fields := ← Ron.optional entries "fields" [] fun list =>
      list.toList?.bind (·.mapM FieldSpec.ofRon?)
    effect := ← Ron.required entries "effect" SpellEffect.ofRon? }

/-! ## Catalogs -/

namespace SpellCatalog

/-- The first id that some definitions repeat after the ids seen so far. -/
def repeated? (seen : List String) : List SpellDefinition → Option String
  | [] => none
  | d :: rest => if d.id ∈ seen then some d.id else repeated? (d.id :: seen) rest

def parse (text : String) : Except ContentError (List SpellDefinition) :=
  match (Ron.parse? text).bind fun root => root.toList?.bind (·.mapM SpellDefinition.ofRon?) with
  | none => .error .malformedCatalog
  | some definitions =>
    match repeated? [] definitions with
    | some id => .error (.duplicateSpell id)
    | none => .ok definitions

def ofFile (files : Files) (path : String) : Except ContentError (List SpellDefinition) :=
  files.parse path parse

end SpellCatalog

end Spellcraft
