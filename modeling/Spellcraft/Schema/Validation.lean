import Spellcraft.Schema

/-! # Validating parameters

Validation reports every problem of its input at once, in order. Without problems its result
holds only canonical names and normalized values: what the caller gave, in the caller's order,
and then the defaults of the fields that the caller left out, in order of declaration.
-/

namespace Spellcraft

inductive ValidationError where
  | unknownParameter (key : String)
  | typeMismatch (key : String) (expected : Kind)
  | unconvertible (key : String)
  | duplicate (name : String)
  | missingRequired (name : String)
  deriving DecidableEq

namespace ValidationError

def text : ValidationError → String
  | .unknownParameter key => "unknown parameter: " ++ key
  | .typeMismatch key expected =>
    "parameter '" ++ key ++ "' has the wrong type, expected " ++ expected.displayName
  | .unconvertible key => "parameter '" ++ key ++ "' cannot be converted to a valid value"
  | .duplicate name => "parameter '" ++ name ++ "' is defined more than once"
  | .missingRequired name => "missing required parameter: " ++ name

end ValidationError

structure ValidationErrors where
  errors : List ValidationError
  deriving DecidableEq

instance : Diagnostic ValidationErrors where
  code _ := "VALIDATION_FAILED"
  message e := "\n".intercalate (e.errors.map ValidationError.text)
  severity _ := .validation

/-- What a validation found: its problems, and the normalized parameters, which are empty if
    there are problems. -/
structure ValidationResult where
  errors : List ValidationError
  normalized : Parameters

namespace ValidationResult

def isSuccess (r : ValidationResult) : Bool := r.errors.isEmpty

def message (r : ValidationResult) : String :=
  if r.isSuccess then "parameters validated"
  else Diagnostic.message (ValidationErrors.mk r.errors)

def toExcept (r : ValidationResult) : Except ValidationErrors Parameters :=
  if r.isSuccess then .ok r.normalized else .error ⟨r.errors⟩

end ValidationResult

namespace Schema

variable (s : Schema)

def checkEntry (accepted : Record Value) (key : String) (value : Value) :
    Except ValidationError (String × Value) :=
  match s.resolve? key with
  | none => .error (.unknownParameter key)
  | some name =>
    match s.definition? name with
    | none => .error (.unknownParameter name)
    | some field =>
      if !field.kind.isValid value then .error (.typeMismatch key field.kind)
      else
        match field.kind.normalize value with
        | none => .error (.unconvertible key)
        | some normal =>
          -- a second value counts as a repetition only if it would be accepted by itself
          if accepted.contains name then .error (.duplicate name)
          else .ok (name, normal)

def checkEntries (accepted : Record Value) :
    List (String × Value) → Record Value × List ValidationError
  | [] => (accepted, [])
  | (key, value) :: rest =>
    match s.checkEntry accepted key value with
    | .ok (name, normal) => checkEntries (accepted.put name normal) rest
    | .error e =>
      let (accepted, errors) := checkEntries accepted rest
      (accepted, e :: errors)

def fillDefaults (accepted : Record Value) :
    List FieldDefinition → Record Value × List ValidationError
  | [] => (accepted, [])
  | field :: rest =>
    if accepted.contains field.name then fillDefaults accepted rest
    else if field.required then
      let (accepted, errors) := fillDefaults accepted rest
      (accepted, .missingRequired field.name :: errors)
    else
      match field.default? with
      | some value => fillDefaults (accepted.put field.name value) rest
      | none => fillDefaults accepted rest

def validate (params : Parameters) : ValidationResult :=
  let (accepted, errors) := s.checkEntries Record.empty params.entries
  let (complete, missing) := fillDefaults accepted s.fields
  match errors ++ missing with
  | [] => ⟨[], .ofValidated complete⟩
  | problems => ⟨problems, .empty⟩

/-- The normalized values of the fields that the caller named, under any alias, without the
    defaults that validation filled in. -/
def supplied (given normalized : Parameters) : Parameters :=
  .ofList (given.keys.filterMap fun key => do
    let name ← s.resolve? key
    let value ← normalized.find? name
    return (name, value))

end Schema

end Spellcraft
