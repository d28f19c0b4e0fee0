import Spellcraft.Number.Decimal
import Spellcraft.Record
import Spellcraft.Text.Blank
import Spellcraft.Text.Letter

/-! # Environment files

A file `.env` sets variables, one per line: `NAME=value`, optionally after `export`. It never
changes a variable that is set already.

* A value in single quotes is kept as it is; elsewhere a backslash protects a character, and
  `$NAME` stands for the variable's value. In braces a name may hold any character.
* A quoted value may run over several lines.
* A line may end in a comment after a blank.

The file is read up to its first faulty line; what the lines before it set stays set.
-/

namespace Spellcraft.Dotenv

/-! ## Lines -/

/-- Where in a line a character stands. -/
inductive Position where
  | text
  | afterBlank
  | escaped
  | weak
  | weakEscaped
  | strong
  | strongEscaped
  deriving DecidableEq

namespace Position

def afterText (c : Char) : Position :=
  if c = '\\' then .escaped else if c = '"' then .weak else if c = '\'' then .strong else .text

def next? (p : Position) (c : Char) : Option Position :=
  match p with
  | .text =>
    if isBlank c && c != '\n' && c != '\r' then some .afterBlank else some (afterText c)
  | .afterBlank => if c = '#' then none else some (afterText c)
  | .escaped => some .text
  | .weak => some (if c = '\\' then .weakEscaped else if c = '"' then .text else .weak)
  | .weakEscaped => some .weak
  | .strong =>
    some (if c = '\\' then .strongEscaped else if c = '\'' then .text else .strong)
  | .strongEscaped => some .strong

end Position

/-- The characters of a line up to a comment, and the position at its end if there is none. -/
def scan (p : Position) : List Char → List Char × Option Position
  | [] => ([], some p)
  | c :: cs =>
    match p.next? c with
    | none => ([], none)
    | some p =>
      let (taken, last?) := scan p cs
      (c :: taken, last?)

def lines : List Char → List (List Char)
  | [] => []
  | c :: cs =>
    match c, lines cs with
    | '\n', rest => ['\n'] :: rest
    | c, first :: rest => (c :: first) :: rest
    | c, [] => [[c]]

def dropLineEnd (cs : List Char) : List Char :=
  match cs.reverse with
  | '\n' :: '\r' :: more | '\n' :: more => more.reverse
  | _ => cs

/-- Joins lines that a quoted value runs over and drops comments. A value that is still open at
    the end of the text makes a fault, for which there is no line. -/
def joined (p : Position) (open_ : List Char) : List (List Char) → List (Option (List Char))
  | [] => if p = .text then [] else [none]
  | line :: rest =>
    if open_.isEmpty && (line.dropWhile isBlank).head? == some '#' then joined .text [] rest
    else
      match scan p line with
      | (taken, none) => some (open_ ++ taken) :: joined .text [] rest
      | (_, some .text) => some (dropLineEnd (open_ ++ line)) :: joined .text [] rest
      | (_, some p) => joined p (open_ ++ line) rest

/-! ## Values -/

inductive Quotes where
  | none
  | weak
  | strong
  deriving DecidableEq

inductive Part where
  | text
  | escaped
  | reference (name : List Char)
  | bracedReference (name : List Char)
  | ended

/-- Reads a value. A reference ends at the first character that no name holds, and that character
    is text, whatever it is. -/
def readValue (value : List Char → List Char) (quotes : Quotes) (part : Part) :
    List Char → Option (List Char)
  | [] =>
    match quotes, part with
    | .none, .reference name => some (value name)
    | .none, .bracedReference _ => none
    | .none, _ => some []
    | _, _ => none
  | c :: cs =>
    let text (quotes : Quotes) (out : List Char) : Option (List Char) :=
      (readValue value quotes .text cs).map (out ++ ·)
    match part with
    | .ended =>
      if c = ' ' ∨ c = '\t' then readValue value quotes .ended cs
      else if c = '#' then (if quotes = .none then some [] else none)
      else none
    | .escaped =>
      if c = 'n' then text quotes ['\n']
      else if ['\\', '\'', '"', '$', ' '].contains c then text quotes [c]
      else none
    | .reference name =>
      if isLetter c || isDigit c then readValue value quotes (.reference (name ++ [c])) cs
      else if c = '\x7b' ∧ name = [] then readValue value quotes (.bracedReference []) cs
      else if c = '$' then (readValue value quotes (.reference []) cs).map (value name ++ ·)
      -- the character behind a reference loses any meaning of its own, a closing quote included
      else text quotes (value name ++ [c])
    | .bracedReference name =>
      if c = '\x7d' then text quotes (value name)
      else readValue value quotes (.bracedReference (name ++ [c])) cs
    | .text =>
      match quotes, c with
      | .strong, '\'' => text .none []
      | .strong, c => text .strong [c]
      | quotes, '$' => readValue value quotes (.reference []) cs
      | .weak, '"' => text .none []
      | quotes, '\\' => readValue value quotes .escaped cs
      | .weak, c => text .weak [c]
      | .none, '\'' => text .strong []
      | .none, '"' => text .weak []
      | .none, c =>
        if c = ' ' ∨ c = '\t' then readValue value .none .ended cs else text .none [c]

/-! ## Assignments -/

def isNameChar (c : Char) : Bool := c.isAlphanum || c = '_' || c = '.'

def readName (cs : List Char) : Option (List Char × List Char) :=
  match cs with
  | c :: _ =>
    if c.isAlpha || c = '_' then
      some (cs.takeWhile isNameChar, (cs.dropWhile isNameChar).dropWhile isBlank)
    else none
  | [] => none

inductive Line where
  | blank
  | assignment (name : List Char) (value : List Char)

def isOver (cs : List Char) : Bool := cs.isEmpty || cs.head? == some '#'

def readLine (line : List Char) : Option Line := do
  let cs := trimBlanks line
  if isOver cs then return .blank
  let (name, cs) ← readName cs
  let (name, cs) ←
    match cs with
    | '=' :: _ => some (name, cs)
    | _ => if name = "export".toList then readName cs else none
  match cs with
  | '=' :: cs => return .assignment name (cs.dropWhile isBlank)
  | _ => none

def valueOf (bindings : Entries String) (name : List Char) : List Char :=
  ((Entries.find? bindings (String.ofList name)).getD "").toList

def assign (bindings : Entries String) (line : List Char) : Option (Entries String) := do
  match ← readLine line with
  | .blank => return bindings
  | .assignment name written =>
    let value ←
      if isOver written then some [] else readValue (valueOf bindings) .none .text written
    let name := String.ofList name
    return if Entries.contains bindings name then bindings
      else Entries.put bindings name (String.ofList value)

def assignAll (bindings : Entries String) : List (Option (List Char)) → Entries String
  | [] => bindings
  | none :: _ => bindings
  | some line :: rest =>
    match assign bindings line with
    | some bindings => assignAll bindings rest
    | none => bindings

/-- The variables after an environment file. A byte order mark in front of it does not count. -/
def extend (bindings : Entries String) (text : String) : Entries String :=
  let cs := match text.toList with
    | '\uFEFF' :: cs => cs
    | cs => cs
  assignAll bindings (joined .text [] (lines cs))

end Spellcraft.Dotenv
