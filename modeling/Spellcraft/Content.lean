import Spellcraft.Files
import Spellcraft.Text.Blank

/-! # Content of files

Override tables, server tuning and catalogs are read from files. A `ContentError` says which of
them could not be read and why; the format of a table follows from the name of its file.
-/

namespace Spellcraft

inductive TableFormat where
  | json
  | toml
  | ron
  deriving DecidableEq

namespace TableFormat

def all : List TableFormat := [.json, .toml, .ron]

def name : TableFormat → String
  | .json => "json"
  | .toml => "toml"
  | .ron => "ron"

def displayName : TableFormat → String
  | .json => "JSON"
  | .toml => "TOML"
  | .ron => "RON"

def ofName? (text : String) : Option TableFormat := all.find? fun format => format.name == text

/-- The format of a file, by its extension in any mix of cases; JSON if that says nothing. -/
def ofPath (path : String) : TableFormat :=
  ((Path.extension? path).bind fun extension => ofName? (asciiLower extension)).getD .json

end TableFormat

inductive ContentError where
  | malformedTable (format : TableFormat)
  | malformedServer
  | malformedCatalog
  | duplicateSpell (id : String)
  | unreadable (path : String) (failure : ReadFailure)
  | inFile (path : String) (error : ContentError)
  deriving DecidableEq

namespace ContentError

def message : ContentError → String
  | .malformedTable format =>
    "Failed to parse parameter " ++ format.displayName ++ ": not an override table"
  | .malformedServer => "Failed to parse server TOML: not a server configuration"
  | .malformedCatalog => "Failed to parse spell catalog RON: not a spell catalog"
  | .duplicateSpell id => "Duplicate spell id in catalog: " ++ id
  | .unreadable path failure => "Failed to read file " ++ path ++ ": " ++ failure.message
  | .inFile path error => "Failed to parse " ++ path ++ ": " ++ error.message

end ContentError

namespace Files

def parse {α : Type} (files : Files) (path : String) (read : String → Except ContentError α) :
    Except ContentError α :=
  match files path with
  | .error failure => .error (.unreadable path failure)
  | .ok text => (read text).mapError (.inFile path)

end Files

end Spellcraft
