import Spellcraft.Options

/-! # Parameter schemas

A spell declares which parameters it takes. A schema holds its own fields in order of
declaration and a list of aliases; besides these, every schema accepts the five cast flags.

* `Schema.resolve?` finds the field that a key stands for;
* `Schema.definition?` finds the definition of a field;
* `Schema.usage` describes the schema's own fields, one per line.

Schemas are put together in `Schema.Builder` and checked against input in `Schema.Validation`.
-/

namespace Spellcraft

/-- A declared field. A default is stored in the normalized form of the field's kind. -/
structure FieldDefinition where
  name : String
  kind : Kind
  required : Bool
  default? : Option Value
  description : String
  aliases : List String

structure Schema where
  fields : List FieldDefinition
  aliases : Entries String

namespace Schema

def empty : Schema := ⟨[], []⟩

instance : Inhabited Schema := ⟨empty⟩

def flagField (flag : CastFlag) : FieldDefinition where
  name := flag.key
  kind := .boolean
  required := false
  default? := some (.boolean flag.documentedDefault)
  description := flag.description
  aliases := []

/-- The fields that every schema accepts. Their defaults are only shown, never filled in. -/
def globals : List FieldDefinition := CastFlag.all.map flagField

def findField? (fields : List FieldDefinition) (name : String) : Option FieldDefinition :=
  fields.find? fun field => field.name == name

def hasField (fields : List FieldDefinition) (name : String) : Bool :=
  (findField? fields name).isSome

def isGlobal (name : String) : Bool := hasField globals name

variable (s : Schema)

def definition? (name : String) : Option FieldDefinition :=
  (findField? s.fields name).or (findField? globals name)

def resolve? (key : String) : Option String :=
  if hasField s.fields key || isGlobal key then some key
  else Entries.find? s.aliases key

def usageLine (field : FieldDefinition) : String :=
  let aliases :=
    if field.aliases.isEmpty then "" else " (" ++ ", ".intercalate field.aliases ++ ")"
  let presence :=
    if field.required then " [required]"
    else match field.default? with
      | some value => " = " ++ value.text
      | none => " [optional]"
  let description := if field.description.isEmpty then "" else " - " ++ field.description
  field.name ++ aliases ++ " : " ++ field.kind.displayName ++ presence ++ description

def usage : String := String.join (s.fields.map fun field => usageLine field ++ "\n")

end Schema

end Spellcraft
