import Spellcraft.Number.Decimal
import Spellcraft.Record

/-! # TOML values

A TOML document is a table. How a table came about decides what may still be added to it:

* `header` — declared by a header of its own; it cannot be declared again;
* `implied` — named on the way to another header; it can still be declared, once;
* `dotted` — named on the way to a dotted key; only dotted keys may add to it directly;
* `inline` — written in braces; nothing may be added.

Headers in double brackets append a table to an array of tables, and later keys and headers
then mean the last one.
-/

namespace Spellcraft

/-- How a table came about. -/
inductive TomlOrigin where
  | header
  | implied
  | dotted
  | inline
  deriving DecidableEq

/-- A TOML value. Dates and times are told apart from other values, but not looked into. -/
inductive Toml where
  | string (value : String)
  | integer (value : Int)
  | float (value : Binary64)
  | boolean (value : Bool)
  | datetime
  | array (items : List Toml)
  | table (origin : TomlOrigin) (entries : List (String × Toml))
  | tables (rows : List (List (String × Toml)))

abbrev TomlEntries := List (String × Toml)

namespace TomlEntries

/-- Applies a change to the entries reached by a path of header names, creating implied tables
    on the way. An array of tables stands for its last table. -/
def atHeader (entries : TomlEntries) (path : List String)
    (change : TomlEntries → Option TomlEntries) : Option TomlEntries :=
  match path with
  | [] => change entries
  | name :: path =>
    match Entries.find? entries name with
    | none => do
      let inner ← atHeader [] path change
      return Entries.put entries name (.table .implied inner)
    -- what is written in braces is closed
    | some (.table .inline _) => none
    | some (.table origin inner) => do
      let inner ← atHeader inner path change
      return Entries.put entries name (.table origin inner)
    | some (.tables rows) =>
      match rows.getLast? with
      | none => none
      | some last => do
        let last ← atHeader last path change
        return Entries.put entries name (.tables (rows.dropLast ++ [last]))
    | some _ => none

def declareTable (name : String) (entries : TomlEntries) : Option TomlEntries :=
  match Entries.find? entries name with
  | none => some (Entries.put entries name (.table .header []))
  | some (.table .implied inner) => some (Entries.put entries name (.table .header inner))
  | some _ => none

def appendTable (name : String) (entries : TomlEntries) : Option TomlEntries :=
  match Entries.find? entries name with
  | none => some (Entries.put entries name (.tables [[]]))
  | some (.tables rows) => some (Entries.put entries name (.tables (rows ++ [[]])))
  | some _ => none

def assign (entries : TomlEntries) (name : String) (value : Toml) : Option TomlEntries :=
  if Entries.contains entries name then none
  else some (Entries.put entries name value)

def assignDotted (entries : TomlEntries) (path : List String) (name : String) (value : Toml) :
    Option TomlEntries :=
  match path with
  | [] => assign entries name value
  | first :: path =>
    match Entries.find? entries first with
    | none => do
      let inner ← assignDotted [] path name value
      return Entries.put entries first (.table .dotted inner)
    | some (.table .dotted inner) => do
      let inner ← assignDotted inner path name value
      return Entries.put entries first (.table .dotted inner)
    | some (.table .implied inner) =>
      -- a dotted key may pass through a table that a header implied, but not add to it directly
      if path.isEmpty then none
      else do
        let inner ← assignDotted inner path name value
        return Entries.put entries first (.table .implied inner)
    | some _ => none

end TomlEntries

namespace Toml

def sortedEntries (entries : TomlEntries) : TomlEntries :=
  entries.mergeSort fun a b => decide (a.1 ≤ b.1)

def toTable? : Toml → Option TomlEntries
  | .table _ entries => some (sortedEntries entries)
  | _ => none

def toItems? : Toml → Option (List Toml)
  | .array items => some items
  | .tables rows => some (rows.map (.table .header))
  | _ => none

/-- The value as a double. An integer may stand for one if it fits 64 bits, signed or unsigned. -/
def toDouble? : Toml → Option Binary64
  | .integer i => if fits64 i then some (Binary.ofInt .double i) else none
  | .float x => some x
  | _ => none

def toBool? : Toml → Option Bool
  | .boolean b => some b
  | _ => none

end Toml

end Spellcraft
