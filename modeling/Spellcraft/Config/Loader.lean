import Spellcraft.Config.Override
import Spellcraft.Diagnostic
import Spellcraft.Notice

/-! # The override loader

A loader owns the override table of a run. It asks its source at the first use and never again;
if the source fails, the failure is noted and the table is empty.

A source may answer each request differently, so it is the list of its answers: `source n` is
what the `n`-th request would get, and `asked` counts the requests made.
-/

namespace Spellcraft

inductive LoadError where
  | notFound (origin : String)
  | malformed (origin message : String)
  deriving DecidableEq

instance : Diagnostic LoadError where
  code
    | .notFound _ => "LOAD_NOT_FOUND"
    | .malformed .. => "LOAD_MALFORMED"
  message
    | .notFound origin => "override table not found: " ++ origin
    | .malformed origin message =>
      "override table " ++ origin ++ " is malformed: " ++ message
  severity
    | .notFound _ => .recoverable
    | .malformed .. => .validation

abbrev TableSource := Nat → Except LoadError OverrideTable

namespace TableSource

def constant (answer : Except LoadError OverrideTable) : TableSource := fun _ => answer

end TableSource

structure Loader where
  source : TableSource
  asked : Nat := 0
  table? : Option OverrideTable := none

namespace Loader

def ofSource (source : TableSource) : Loader := { source }

def ofTable (table : OverrideTable) : Loader where
  source := .constant (.ok Record.empty)
  table? := some table

def empty : Loader := ofTable Record.empty

instance : Inhabited Loader := ⟨empty⟩

def isLoaded (l : Loader) : Bool := l.table?.isSome

def settle (answer : Except LoadError OverrideTable) : OverrideTable × Notice :=
  match answer with
  | .ok table => (table, .overridesLoaded)
  | .error (.notFound _) => (Record.empty, .overridesMissing)
  | .error (.malformed ..) => (Record.empty, .overridesIgnored)

structure Answer (α : Type) where
  value : α
  loader : Loader
  notices : List Notice

def load (l : Loader) : Answer OverrideTable :=
  match l.table? with
  | some table => ⟨table, l, []⟩
  | none =>
    -- a failure settles the matter too: the source is not asked again
    let (table, notice) := settle (l.source l.asked)
    ⟨table, { l with asked := l.asked + 1, table? := some table }, [notice]⟩

def get (l : Loader) (spell : String) : Answer SpellConfig :=
  let ⟨table, l, notices⟩ := l.load
  ⟨((table.find? spell).map OverrideRecord.config).getD .zero, l, notices⟩

def hasConfig (l : Loader) (spell : String) : Answer Bool :=
  let ⟨table, l, notices⟩ := l.load
  ⟨(table.find? spell).isSome, l, notices⟩

/-- The three layers: the parameters over the record of a table over the spell's own fields. -/
def layered (table : OverrideTable) (spell : String) (params : Parameters) (own : SpellConfig) :
    SpellConfig :=
  let filed := match table.find? spell with
    | some record => record.applyTo own
    | none => own
  filed.withOverrides params

def resolve (l : Loader) (spell : String) (params : Parameters) (own : SpellConfig) :
    Answer SpellConfig :=
  let ⟨table, l, notices⟩ := l.load
  ⟨layered table spell params own, l, notices ++ [.configResolved]⟩

end Loader

end Spellcraft
