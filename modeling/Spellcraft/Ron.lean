import Spellcraft.Number.Decimal
import Spellcraft.Record

/-! # RON values

RON writes records in parentheses, with or without a name in front, and variants by name. A
value is kept as it is written; what a name or a number means depends on what is asked for:

* `Ron.toInt?` and `Ron.toFloat?` read a number as a given type, with at most the suffix of
  that type;
* `Ron.toNumber?` reads a number of any type;
* `Ron.toFields?`, `Ron.toVariant?` and `Ron.toOption` take apart what is in parentheses.
-/

namespace Spellcraft

inductive Ron where
  /-- A name alone: a variant without content, or a word such as `true`, `None` or `inf`. -/
  | atom (text : String)
  /-- A number, as written. -/
  | number (word : List Char)
  /-- A byte written as a character. -/
  | byte (value : Nat)
  | string (value : String)
  /-- A character or a string of bytes, which no record holds. -/
  | opaqueText
  | list (items : List Ron)
  | map (pairs : List (Ron × Ron))
  | tuple (name? : Option String) (items : List Ron)
  | fields (name? : Option String) (entries : List (String × Ron))

inductive RonNumber where
  | integer (value : Int)
  | real (value : Binary64)
  deriving DecidableEq

namespace Ron

/-! ## Numbers -/

def splitSign : List Char → Bool × List Char
  | '-' :: cs => (true, cs)
  | '+' :: cs => (false, cs)
  | cs => (false, cs)

/-- The natural number that digits of a base write; underscores may stand after a digit. -/
def digits? (base : Nat) (cs : List Char) : Option Nat :=
  match cs with
  | [] | '_' :: _ => none
  | _ =>
    if cs.all fun c => c = '_' || (digitValue? base c).isSome then some (digitsValue base cs)
    else none

def integerWord? (word : List Char) : Option Int :=
  let (negative, cs) := splitSign word
  let magnitude? := match cs with
    | '0' :: 'b' :: cs => digits? 2 cs
    | '0' :: 'o' :: cs => digits? 8 cs
    | '0' :: 'x' :: cs => digits? 16 cs
    | cs => digits? 10 cs
  magnitude?.map fun n => if negative then -(n : Int) else n

/-- Whether underscores stand only after a digit or the letter of an exponent. -/
def underscoresFit : Bool → List Char → Bool
  | _, [] => true
  | allowed, c :: cs =>
    if c = '_' then allowed && underscoresFit allowed cs
    else if isDigit c || c = 'e' || c = 'E' then underscoresFit true cs
    else if c = '.' then underscoresFit false cs
    else underscoresFit allowed cs

/-- The float of a format that a word without suffix writes: digits with a point anywhere or
    nowhere, and an exponent. A value too large is an infinity. -/
def floatWord? (f : BinaryFormat) (word : List Char) : Option (Binary f) :=
  let (negative, cs) := splitSign word
  if cs = ['i', 'n', 'f'] then some (Binary.infinite f negative)
  else if cs = ['N', 'a', 'N'] then some (Binary.nan f)
  else if !underscoresFit false word then none
  else
    -- underscores only group digits
    let cs := cs.filter (· != '_')
    let isMark (c : Char) : Bool := c = 'e' || c = 'E'
    let mantissa := cs.takeWhile (!isMark ·)
    let power := cs.dropWhile (!isMark ·)
    let whole := mantissa.takeWhile (· != '.')
    let part := (mantissa.dropWhile (· != '.')).drop 1
    let digits := whole ++ part
    if digits.isEmpty || !digits.all isDigit then none
    else
      let value (exponent : Int) : Binary f :=
        Binary.ofDecimal f negative (digitsValue 10 digits) (exponent - part.length)
      match power with
      | [] => some (value 0)
      | _ :: power =>
        let (down, power) := splitSign power
        if power.isEmpty || !power.all isDigit then none
        else
          let n := digitsValue 10 power
          some (value (if down then -(n : Int) else n))

def dropSuffix? (word suffix : List Char) : Option (List Char) :=
  let stem := word.take (word.length - suffix.length)
  if stem ++ suffix = word then some stem else none

structure IntegerType where
  suffix : List Char
  low : Int
  high : Int

namespace IntegerType

def signed (suffix : String) (width : Nat) : IntegerType :=
  let half : Nat := Nat.pow 2 (width - 1)
  ⟨suffix.toList, -half, half - 1⟩

def unsigned (suffix : String) (width : Nat) : IntegerType :=
  ⟨suffix.toList, 0, (Nat.pow 2 width - 1 : Nat)⟩

def all : List IntegerType :=
  [signed "i8" 8, signed "i16" 16, signed "i32" 32, signed "i64" 64,
    unsigned "u8" 8, unsigned "u16" 16, unsigned "u32" 32, unsigned "u64" 64]

def contains (t : IntegerType) (i : Int) : Bool := t.low ≤ i && i ≤ t.high

/-- The integer of the type that a word with its suffix writes. A suffix needs a number whose
    beginning is made of hexadecimal digits alone. -/
def suffixed? (t : IntegerType) (word : List Char) : Option Int :=
  match dropSuffix? word t.suffix with
  | none => none
  | some stem =>
    if (splitSign stem).2.all fun c => c = '_' || (digitValue? 16 c).isSome then
      (integerWord? stem).filter t.contains
    else none

end IntegerType

def floatSuffix (f : BinaryFormat) : List Char :=
  if f.precision = 53 then ['f', '6', '4'] else ['f', '3', '2']

def suffixedFloat? (f : BinaryFormat) (word : List Char) : Option (Binary f) :=
  (floatWord? f word).or ((dropSuffix? word (floatSuffix f)).bind (floatWord? f))

/-- The integer that a word of any type writes: without a suffix it fits 64 bits. -/
def anyInteger? (word : List Char) : Option Int :=
  ((integerWord? word).filter fits64).or
    (IntegerType.all.findSome? fun t => t.suffixed? word)

/-- The number that a word of any type writes. An integer too large for 64 bits is a float. -/
def anyNumber? (word : List Char) : Option RonNumber :=
  match anyInteger? word with
  | some i => some (.integer i)
  | none =>
    let single? := (suffixedFloat? .single word).map Binary.widen
    ((suffixedFloat? .double word).or single?).map .real

/-! ## Views -/

def toInt? (t : IntegerType) : Ron → Option Int
  | .number word => ((integerWord? word).filter t.contains).or (t.suffixed? word)
  | .byte n => if t.contains n then some n else none
  | _ => none

def toFloat? (f : BinaryFormat) : Ron → Option (Binary f)
  | .number word => suffixedFloat? f word
  | .atom text => suffixedFloat? f text.toList
  | _ => none

def toNumber? : Ron → Option RonNumber
  | .number word => anyNumber? word
  | .atom text => anyNumber? text.toList
  | .byte n => some (.integer n)
  | _ => none

def toBool? : Ron → Option Bool
  | .atom text =>
    if text = "true" then some true else if text = "false" then some false else none
  | _ => none

def toString? : Ron → Option String
  | .string s => some s
  | _ => none

def toList? : Ron → Option (List Ron)
  | .list items => some items
  | _ => none

/-- A value that may be missing: the word `None`, or the value itself, bare or in `Some`. -/
def toOption (r : Ron) : Option Ron :=
  match r with
  | .atom text => if text = "None" then none else some r
  | .tuple (some name) [inner] => if name = "Some" then some inner else some r
  | _ => some r

def toPairs? : Ron → Option (List (String × Ron))
  | .map pairs => pairs.mapM fun p => p.1.toString?.map (·, p.2)
  | _ => none

/-- The fields of a record of a given name; the name may be left out. -/
def toFields? (name : String) : Ron → Option (List (String × Ron))
  | .fields name? entries => if name?.getD name = name then some entries else none
  | .tuple name? [] => if name?.getD name = name then some [] else none
  | _ => none

def toVariant? : Ron → Option (String × Ron)
  | .tuple (some name) [item] => some (name, item)
  | _ => none

def required {α : Type} (entries : List (String × Ron)) (name : String)
    (read : Ron → Option α) : Option α :=
  match Entries.single? entries name with
  | some (some value) => read value
  | _ => none

def optional {α : Type} (entries : List (String × Ron)) (name : String) (default : α)
    (read : Ron → Option α) : Option α :=
  match Entries.single? entries name with
  | some (some value) => read value
  | some none => some default
  | none => none

def nullable {α : Type} (entries : List (String × Ron)) (name : String)
    (read : Ron → Option α) : Option (Option α) :=
  optional entries name none fun value =>
    match value.toOption with
    | some inner => (read inner).map some
    | none => some none

end Ron

end Spellcraft
