import Spellcraft.Json.Number
import Spellcraft.Record

/-! # JSON text

One grammar, read in two ways:

* strictly, into a value (`Json.parse?`): escapes must be characters, numbers must fit a double,
  and at most 127 arrays and objects may be nested;
* by shape only (`Json.skipValue`): only the extent of a value matters.

`Json.splitObject` reads the names of an object strictly and its values by shape, and returns
the values as they are written. So a value that nobody asks for can be wrong inside.
-/

namespace Spellcraft

/-- A JSON value. The members of an object are kept as written, repetitions included. -/
inductive Json where
  | null
  | bool (value : Bool)
  | number (value : Json.Number)
  | string (value : String)
  | array (items : List Json)
  | object (members : List (String × Json))

namespace Json

def kindName : Json → String
  | .null => "null"
  | .bool _ => "boolean"
  | .number _ => "number"
  | .string _ => "string"
  | .array _ => "array"
  | .object _ => "object"

/-! ## Blanks -/

def isSpace (c : Char) : Bool := c = ' ' || c = '\t' || c = '\n' || c = '\r'

def skipSpace (cs : List Char) : List Char := cs.dropWhile isSpace

/-! ## Strings -/

def readUnit : Reader Nat := fun
  | a :: b :: c :: d :: rest => do
    let a ← digitValue? 16 a
    let b ← digitValue? 16 b
    let c ← digitValue? 16 c
    let d ← digitValue? 16 d
    return (((a * 16 + b) * 16 + c) * 16 + d, rest)
  | _ => none

def simpleEscape? : Char → Option Char
  | '"' => some '"'
  | '\\' => some '\\'
  | '/' => some '/'
  | 'b' => some '\x08'
  | 'f' => some '\x0c'
  | 'n' => some '\n'
  | 'r' => some '\r'
  | 't' => some '\t'
  | _ => none

/-- Reads what follows a backslash. A leading surrogate must be followed by a trailing one; the
    pair is one character. -/
def readEscape : Reader Char := fun
  | 'u' :: cs =>
    match readUnit cs with
    | none => none
    | some (unit, rest) =>
      if 0xD800 ≤ unit ∧ unit < 0xDC00 then
        -- a leading surrogate carries the upper ten bits
        match rest with
        | '\\' :: 'u' :: rest =>
          match readUnit rest with
          | some (low, rest) =>
            if 0xDC00 ≤ low ∧ low < 0xE000 then
              some (Char.ofNat (0x10000 + (unit - 0xD800) * 0x400 + (low - 0xDC00)), rest)
            else none
          | none => none
        | _ => none
      else if 0xDC00 ≤ unit ∧ unit < 0xE000 then none
      else some (Char.ofNat unit, rest)
  | c :: rest => (simpleEscape? c).map (·, rest)
  | [] => none

/-- Reads the extent of what follows a backslash: four digits need not be a character. -/
def skipEscape : Reader Char := fun
  | 'u' :: cs => (readUnit cs).map fun p => ('u', p.2)
  | c :: rest => (simpleEscape? c).map (·, rest)
  | [] => none

def readStringFrom (escape : Reader Char) : Nat → Reader (List Char)
  | 0, _ => none
  | _ + 1, [] => none
  | fuel + 1, c :: cs =>
    if c = '"' then some ([], cs)
    else if c = '\\' then
      match escape cs with
      | none => none
      | some (c, cs) =>
        match readStringFrom escape fuel cs with
        | some (more, rest) => some (c :: more, rest)
        | none => none
    else if c.toNat < 0x20 then none
    else
      match readStringFrom escape fuel cs with
      | some (more, rest) => some (c :: more, rest)
      | none => none

def readString (escape : Reader Char) : Reader String := fun
  | '"' :: cs =>
    match readStringFrom escape (cs.length + 1) cs with
    | some (text, rest) => some (String.ofList text, rest)
    | none => none
  | _ => none

/-! ## Values -/

/-- What a reading of the grammar makes of each construct. -/
structure Reading (α : Type) where
  escape : Reader Char
  null : α
  bool : Bool → α
  number : NumberLiteral → Option α
  string : String → α
  array : List α → α
  object : List (String × α) → α

/-- The layout of arrays and objects: no separator before the closing character. -/
def layout (close : Char) : Reader.Layout where
  skip cs := some (skipSpace cs)
  separator := ','
  close := close
  trailing := false

def readMember {α : Type} (escape : Reader Char) (value : Reader α) : Reader (String × α) :=
  fun cs =>
    match readString escape cs with
    | none => none
    | some (name, cs) =>
      match skipSpace cs with
      | ':' :: cs =>
        match value (skipSpace cs) with
        | some (a, rest) => some ((name, a), rest)
        | none => none
      | _ => none

def readValue {α : Type} (reading : Reading α) (depth : Nat) : Reader α := fun
  | 'n' :: cs => (Reader.literal ['u', 'l', 'l'] cs).map fun p => (reading.null, p.2)
  | 't' :: cs => (Reader.literal ['r', 'u', 'e'] cs).map fun p => (reading.bool true, p.2)
  | 'f' :: cs => (Reader.literal ['a', 'l', 's', 'e'] cs).map fun p => (reading.bool false, p.2)
  | '"' :: cs => (readString reading.escape ('"' :: cs)).map fun p => (reading.string p.1, p.2)
  | '[' :: cs =>
    match depth with
    | 0 => none
    | depth + 1 =>
      (Reader.items (layout ']') (readValue reading depth) cs).map fun p =>
        (reading.array p.1, p.2)
  | '\x7b' :: cs =>
    match depth with
    | 0 => none
    | depth + 1 =>
      (Reader.items (layout '\x7d') (readMember reading.escape (readValue reading depth)) cs).map
        fun p => (reading.object p.1, p.2)
  | cs =>
    match NumberLiteral.read cs with
    | none => none
    | some (literal, rest) => (reading.number literal).map (·, rest)

def strict : Reading Json where
  escape := readEscape
  null := .null
  bool := .bool
  number literal := literal.value?.map .number
  string := .string
  array := .array
  object := .object

/-- The reading by shape, which keeps nothing. -/
def shape : Reading Unit where
  escape := skipEscape
  null := ()
  bool _ := ()
  number _ := some ()
  string _ := ()
  array _ := ()
  object _ := ()

def maxDepth : Nat := 127

def parseWithin? (depth : Nat) (cs : List Char) : Option Json :=
  match readValue strict depth (skipSpace cs) with
  | some (value, rest) => if skipSpace rest = [] then some value else none
  | none => none

def parse? (cs : List Char) : Option Json := parseWithin? maxDepth cs

/-! ## Values as written -/

def skipValue (cs : List Char) : Option (List Char) :=
  (readValue shape cs.length cs).map Prod.snd

def readRaw : Reader (List Char) := fun cs =>
  (skipValue cs).map fun rest => (cs.take (cs.length - rest.length), rest)

def splitObject (cs : List Char) : Option (List (String × List Char)) :=
  match skipSpace cs with
  | '\x7b' :: cs =>
    match Reader.items (layout '\x7d') (readMember readEscape readRaw) cs with
    | some (members, rest) => if skipSpace rest = [] then some members else none
    | none => none
  | _ => none

def splitArray (cs : List Char) : Option (List (List Char)) :=
  match skipSpace cs with
  | '[' :: cs =>
    match Reader.items (layout ']') readRaw cs with
    | some (items, rest) => if skipSpace rest = [] then some items else none
    | none => none
  | _ => none

end Json

end Spellcraft
