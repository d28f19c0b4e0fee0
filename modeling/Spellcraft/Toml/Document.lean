import Spellcraft.Toml.Scalar

/-! # TOML documents

A document is a sequence of lines: assignments, headers in single or double brackets, and
comments. Arrays and inline tables may run over several lines, hold comments and end with a
comma. No name is assigned twice.
-/

namespace Spellcraft.Toml

def skipComment : List Char → Option (List Char)
  | '#' :: cs =>
    let rest := cs.dropWhile isPlain
    if rest.isEmpty || (newline? rest).isSome then some rest else none
  | cs => some cs

def skipFiller : Nat → List Char → Option (List Char)
  | 0, cs => some cs
  | fuel + 1, cs =>
    match skipComment (cs.dropWhile isSpace) with
    | none => none
    | some cs =>
      match newline? cs with
      | some rest => skipFiller fuel rest
      | none => some cs

def listLayout (close : Char) : Reader.Layout where
  skip cs := skipFiller (cs.length + 1) cs
  separator := ','
  close := close
  trailing := true

def readAssigned {α : Type} (value : Reader α) : Reader α := fun cs =>
  match cs.dropWhile isSpace with
  | '=' :: cs => value (cs.dropWhile isSpace)
  | _ => none

def readAssignment {α : Type} (value : Reader α) : Reader ((List String × String) × α) :=
  fun cs =>
    match readKey cs with
    | none => none
    | some (key, cs) =>
      match readAssigned value cs with
      | some (a, rest) => some ((key, a), rest)
      | none => none

/-- The entries of an inline table: what is named twice is refused. -/
def inlineEntries (assignments : List ((List String × String) × Toml)) : Option TomlEntries :=
  assignments.foldlM (fun entries a => TomlEntries.assignDotted entries a.1.1 a.1.2 a.2) []

def readValue (depth : Nat) : Reader Toml := fun cs =>
  match cs, depth with
  | '"' :: _, _ | '\'' :: _, _ => (readString cs).map fun p => (.string p.1, p.2)
  | '[' :: cs, depth + 1 =>
    (Reader.items (listLayout ']') (readValue depth) cs).map fun p => (.array p.1, p.2)
  | '\x7b' :: cs, depth + 1 =>
    match Reader.items (listLayout '\x7d') (readAssignment (readValue depth)) cs with
    | none => none
    | some (assignments, rest) =>
      (inlineEntries assignments).map fun entries => (.table .inline entries, rest)
  | cs, _ =>
    match readWord cs with
    | none => none
    | some (word, rest) => (word? word).map (·, rest)

def maxDepth : Nat := 80

inductive Line where
  | blank
  | assignment (path : List String) (name : String) (value : Toml)
  | header (path : List String) (name : String)
  | rowHeader (path : List String) (name : String)

def readHeader (close : List Char) (line : List String → String → Line) : Reader Line :=
  fun cs =>
    match readKey cs with
    | none => none
    | some ((path, name), cs) =>
      (Reader.literal close (cs.dropWhile isSpace)).map fun p => (line path name, p.2)

def readLine : Reader Line := fun cs =>
  match cs with
  | [] | '#' :: _ | '\n' :: _ | '\r' :: _ => some (.blank, cs)
  | '[' :: '[' :: cs => readHeader [']', ']'] .rowHeader cs
  | '[' :: cs => readHeader [']'] .header cs
  | cs =>
    (readAssignment (readValue maxDepth) cs).map fun p =>
      (.assignment p.1.1.1 p.1.1.2 p.1.2, p.2)

/-- The lines of a document. Every line but the last takes at least one character. -/
def readLines : Nat → List Char → Option (List Line)
  | 0, _ => none
  | fuel + 1, cs =>
    match readLine (cs.dropWhile isSpace) with
    | none => none
    | some (line, cs) =>
      match skipComment (cs.dropWhile isSpace) with
      | none => none
      | some [] => some [line]
      | some cs =>
        match newline? cs with
        | none => none
        | some rest => (readLines fuel rest).map (line :: ·)

/-- A document under construction: its entries, and the header that assignments belong to. -/
structure Draft where
  root : TomlEntries := []
  header : List String := []

def Draft.add (d : Draft) : Line → Option Draft
  | .blank => some d
  | .assignment path name value => do
    let root ← TomlEntries.atHeader d.root d.header fun entries =>
      TomlEntries.assignDotted entries path name value
    return { d with root }
  | .header path name => do
    let root ← TomlEntries.atHeader d.root path (TomlEntries.declareTable name)
    return ⟨root, path ++ [name]⟩
  | .rowHeader path name => do
    let root ← TomlEntries.atHeader d.root path (TomlEntries.appendTable name)
    return ⟨root, path ++ [name]⟩

/-- Reads a document. A byte order mark in front of it does not count. -/
def parse? (text : String) : Option Toml :=
  let cs := match text.toList with
    | '\uFEFF' :: cs => cs
    | cs => cs
  match readLines (cs.length + 1) cs with
  | none => none
  | some lines => (lines.foldlM Draft.add {}).map fun d => .table .header d.root

end Spellcraft.Toml
