import Spellcraft.Config
import Spellcraft.Schema

/-! # Building a schema

A schema is declared by calls: fields, and aliases of fields. Fields are checked as they are
declared, and a field that fails its check is left out; aliases are checked at the end, when
all fields are known. So it does not matter where among the calls an alias stands.

`SchemaBuilder.build` reports the first field that failed, or else the first alias that does.
-/

namespace Spellcraft

inductive SchemaError where
  | duplicateField (name : String)
  | shadowsGlobal (name : String)
  | danglingAlias (name target : String)
  | duplicateAlias (name : String)
  | invalidDefault (name : String) (kind : Kind)
  deriving DecidableEq

instance : Diagnostic SchemaError where
  code
    | .duplicateField _ => "SCHEMA_DUPLICATE_FIELD"
    | .shadowsGlobal _ => "SCHEMA_SHADOWS_GLOBAL"
    | .danglingAlias .. => "SCHEMA_DANGLING_ALIAS"
    | .duplicateAlias _ => "SCHEMA_DUPLICATE_ALIAS"
    | .invalidDefault .. => "SCHEMA_INVALID_DEFAULT"
  message
    | .duplicateField name => "field '" ++ name ++ "' is declared more than once"
    | .shadowsGlobal name => "field '" ++ name ++ "' shadows a global parameter"
    | .danglingAlias name target =>
      "alias '" ++ name ++ "' points to unknown field '" ++ target ++ "'"
    | .duplicateAlias name =>
      "alias '" ++ name ++ "' collides with an existing field or alias"
    | .invalidDefault name kind =>
      "default for field '" ++ name ++ "' is not a valid " ++ kind.displayName
  severity _ := .fatal

inductive Presence where
  | required
  | optional (default : Value)
  | optionalUnset

/-- One call on a builder. -/
inductive Declaration where
  | field (name : String) (kind : Kind) (presence : Presence) (description : String)
  /-- A further name for a field. -/
  | synonym (name target : String)

/-- The declarations so far: fields that passed their check, aliases, and the first failure. -/
structure SchemaBuilder where
  fields : List FieldDefinition := []
  aliases : List (String × String) := []
  failed? : Option SchemaError := none

namespace SchemaBuilder

def empty : SchemaBuilder := {}

instance : Inhabited SchemaBuilder := ⟨empty⟩

def defaultOf (name : String) (kind : Kind) : Presence → Except SchemaError (Option Value)
  | .optional value =>
    match kind.normalize value with
    | some normal => .ok (some normal)
    | none => .error (.invalidDefault name kind)
  | .required | .optionalUnset => .ok none

def defineField (fields : List FieldDefinition) (name : String) (kind : Kind)
    (presence : Presence) (description : String) : Except SchemaError FieldDefinition :=
  if Schema.isGlobal name then .error (.shadowsGlobal name)
  else if Schema.hasField fields name then .error (.duplicateField name)
  else
    match defaultOf name kind presence with
    | .error e => .error e
    | .ok default? =>
      .ok {
        name, kind, description, default?
        required := match presence with
          | .required => true
          | .optional _ | .optionalUnset => false
        aliases := [] }

def field (b : SchemaBuilder) (name : String) (kind : Kind) (presence : Presence)
    (description : String) : SchemaBuilder :=
  match defineField b.fields name kind presence description with
  | .ok definition => { b with fields := b.fields ++ [definition] }
  | .error e => { b with failed? := b.failed?.or (some e) }

def synonym (b : SchemaBuilder) (name target : String) : SchemaBuilder :=
  { b with aliases := b.aliases ++ [(name, target)] }

def declare (b : SchemaBuilder) : Declaration → SchemaBuilder
  | .field name kind presence description => b.field name kind presence description
  | .synonym name target => b.synonym name target

def declareAll (b : SchemaBuilder) (calls : List Declaration) : SchemaBuilder :=
  calls.foldl declare b

/-- The calls that declare the configuration fields with a configuration's values as defaults,
    each followed by its short name. -/
def configDeclarations (defaults : SpellConfig) : List Declaration :=
  ConfigField.all.flatMap fun f =>
    .field f.key f.kind (.optional (defaults.value f)) f.description ::
      match f.alias? with
      | some name => [.synonym name f.key]
      | none => []

def ofConfig (defaults : SpellConfig) : SchemaBuilder :=
  empty.declareAll (configDeclarations defaults)

def attachAlias (fields : List FieldDefinition) (name target : String) : List FieldDefinition :=
  fields.map fun field =>
    if field.name = target then { field with aliases := field.aliases ++ [name] } else field

/-- Adds the aliases to a schema in turn, up to the first that has no target or that collides
    with a field, a flag or an earlier alias. -/
def addAliases (s : Schema) : List (String × String) → Except SchemaError Schema
  | [] => .ok s
  | (name, target) :: rest =>
    -- a cast flag may have aliases too, which its definition does not list
    if !(Schema.hasField s.fields target || Schema.isGlobal target) then
      .error (.danglingAlias name target)
    else if Schema.hasField s.fields name || Schema.isGlobal name
        || Entries.contains s.aliases name then
      .error (.duplicateAlias name)
    else
      addAliases
        ⟨attachAlias s.fields name target, s.aliases ++ [(name, target)]⟩ rest

def build (b : SchemaBuilder) : Except SchemaError Schema :=
  match b.failed? with
  | some e => .error e
  | none => addAliases ⟨b.fields, []⟩ b.aliases

end SchemaBuilder

end Spellcraft
