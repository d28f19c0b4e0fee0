import Spellcraft.Ron
import Spellcraft.Text.Letter
import Spellcraft.Text.Reader

/-! # RON documents

A document is one value, with comments and blanks between any two lexemes, after attributes
that name extensions of the language.

* A name is a word of letters, digits and underscores, or any word after `r#`.
* What stands in parentheses is a list of fields if it begins with a name and a colon, and a
  list of values if not; a name may stand in front.
* The last item of a list may be followed by a comma.
-/

namespace Spellcraft.Ron

/-! ## Blanks and comments -/

def isSpace (c : Char) : Bool :=
  let n := c.toNat
  (0x09 ≤ n && n ≤ 0x0D) || n == 0x20 || n == 0x85 || n == 0x200E || n == 0x200F || n == 0x2028
    || n == 0x2029

/-- Drops the rest of a comment that may hold others, `inner` of which are open. -/
def skipBlock : Nat → List Char → Option (List Char)
  | _, [] => none
  | 0, '*' :: '/' :: cs => some cs
  | inner + 1, '*' :: '/' :: cs => skipBlock inner cs
  | inner, '/' :: '*' :: cs => skipBlock (inner + 1) cs
  | inner, _ :: cs => skipBlock inner cs

/-- Drops blanks and comments, of which there are at most as many as characters. -/
def skipFillerFrom : Nat → List Char → Option (List Char)
  | 0, cs => some cs
  | fuel + 1, cs =>
    match cs.dropWhile isSpace with
    | '/' :: '/' :: cs => skipFillerFrom fuel (cs.dropWhile (· != '\n'))
    | '/' :: '*' :: cs =>
      match skipBlock 0 cs with
      | some rest => skipFillerFrom fuel rest
      | none => none
    | cs => some cs

def skipFiller (cs : List Char) : Option (List Char) := skipFillerFrom (cs.length + 1) cs

def filler : Reader Unit := fun cs => (skipFiller cs).map ((), ·)

def layout (close : Char) : Reader.Layout where
  skip := skipFiller
  separator := ','
  close := close
  trailing := true

/-! ## Names -/

def isNameStart (c : Char) : Bool := isLetter c || c = '_'

def isNameMark (c : Char) : Bool :=
  let n := c.toNat
  n == 0xB7 || (0x300 ≤ n && n ≤ 0x36F) || (0x483 ≤ n && n ≤ 0x487)
    || (0x203F ≤ n && n ≤ 0x2040) || (0x20D0 ≤ n && n ≤ 0x20F0) || (0xFE00 ≤ n && n ≤ 0xFE0F)
    || (0xFF10 ≤ n && n ≤ 0xFF19) || (0xE0100 ≤ n && n ≤ 0xE01EF)

def isNameChar (c : Char) : Bool := isNameStart c || isDigit c || isNameMark c

def isRawNameChar (c : Char) : Bool := isNameChar c || c = '.' || c = '+' || c = '-'

/-- Whether a text or a byte, and not a name, begins here. -/
def startsText : List Char → Bool
  | 'b' :: '"' :: _ | 'b' :: '\'' :: _ | 'b' :: 'r' :: '#' :: _ | 'b' :: 'r' :: '"' :: _ => true
  | 'r' :: '"' :: _ | 'r' :: '#' :: '"' :: _ | 'r' :: '#' :: '#' :: _ => true
  | _ => false

def readName : Reader String := fun cs =>
  if startsText cs then none
  else
    match cs with
    | 'r' :: '#' :: cs =>
      match cs.takeWhile isRawNameChar with
      | [] => none
      | name => some (String.ofList name, cs.dropWhile isRawNameChar)
    | c :: _ =>
      let rest := cs.dropWhile isNameChar
      -- a name that runs on in characters of a raw name needs the mark of one
      if isNameStart c && !(rest.head?.any isRawNameChar) then
        some (String.ofList (cs.takeWhile isNameChar), rest)
      else none
    | [] => none

/-! ## Texts -/

def readScalar : Reader Char := fun cs =>
  let digits := cs.takeWhile (· != '\x7d')
  if 1 ≤ digits.length ∧ digits.length ≤ 6
      ∧ digits.all fun c => (digitValue? 16 c).isSome then
    match cs.drop digits.length with
    | _ :: rest =>
      let n := digitsValue 16 digits
      if n.isValidChar then some (Char.ofNat n, rest) else none
    | [] => none
  else none

def readEscape : Reader Char := fun
  | '\'' :: cs => some ('\'', cs)
  | '"' :: cs => some ('"', cs)
  | '\\' :: cs => some ('\\', cs)
  | 'n' :: cs => some ('\n', cs)
  | 'r' :: cs => some ('\r', cs)
  | 't' :: cs => some ('\t', cs)
  | '0' :: cs => some ('\x00', cs)
  | 'x' :: a :: b :: cs =>
    match digitValue? 16 a, digitValue? 16 b with
    | some a, some b => some (Char.ofNat (a * 16 + b), cs)
    | _, _ => none
  | 'u' :: '\x7b' :: cs => readScalar cs
  | _ => none

def readQuotedFrom : Nat → Reader (List Char)
  | 0, _ => none
  | _ + 1, [] => none
  | _ + 1, '"' :: cs => some ([], cs)
  | fuel + 1, '\\' :: cs =>
    match readEscape cs with
    | none => none
    | some (c, cs) => (readQuotedFrom fuel cs).map fun p => (c :: p.1, p.2)
  | fuel + 1, c :: cs => (readQuotedFrom fuel cs).map fun p => (c :: p.1, p.2)

def readQuoted : Reader String := fun cs =>
  (readQuotedFrom (cs.length + 1) cs).map fun p => (String.ofList p.1, p.2)

def readUpTo (close : List Char) : Reader (List Char)
  | [] => none
  | c :: cs =>
    match Reader.literal close (c :: cs) with
    | some (_, rest) => some ([], rest)
    | none => (readUpTo close cs).map fun p => (c :: p.1, p.2)

/-- Reads a text without escapes after its `r`: as many number signs close it as open it. -/
def readRaw : Reader String := fun cs =>
  let signs := cs.takeWhile (· = '#')
  match cs.drop signs.length with
  | '"' :: cs => (readUpTo ('"' :: signs) cs).map fun p => (String.ofList p.1, p.2)
  | _ => none

def readCharacter : Reader Char := fun cs => do
  let (c, cs) ← match cs with
    | '\\' :: cs => readEscape cs
    | c :: cs => some (c, cs)
    | [] => none
  match cs with
  | '\'' :: cs => some (c, cs)
  | _ => none

def readByte : Reader Ron := fun cs =>
  match readCharacter cs with
  | some (c, rest) =>
    if c.toNat < 0x80 || (cs.head? == some '\\' && c.toNat < 0x100) then
      some (.byte c.toNat, rest)
    else none
  | none => none

/-! ## Values -/

def isWord (c : Char) : Bool := c.isAlphanum || c = '_' || c = '+' || c = '-' || c = '.'

def readNumber : Reader Ron := fun cs =>
  let word := cs.takeWhile isWord
  if (anyNumber? word).isSome then some (.number word, cs.dropWhile isWord) else none

def readLeaf : Reader Ron := fun
  | '"' :: cs => (readQuoted cs).map fun p => (.string p.1, p.2)
  | '\'' :: cs => (readCharacter cs).map fun p => (.opaqueText, p.2)
  | 'b' :: '\'' :: cs => readByte cs
  | 'b' :: '"' :: cs => (readQuoted cs).map fun p => (.opaqueText, p.2)
  | cs =>
    if startsText cs then
      match cs with
      | 'b' :: 'r' :: cs => (readRaw cs).map fun p => (.opaqueText, p.2)
      | _ :: cs => (readRaw cs).map fun p => (.string p.1, p.2)
      | [] => none
    else
      match cs with
      | c :: _ =>
        if isDigit c || c = '+' || c = '-' || c = '.' then readNumber cs
        else (readName cs).map fun p => (.atom p.1, p.2)
      | [] => none

def readAssigned {α : Type} (value : Reader α) : Reader α := do
  filler
  Reader.expect ':'
  filler
  value

def readPair (value : Reader Ron) : Reader (Ron × Ron) := do
  let key ← value
  return (key, ← readAssigned value)

def readField (value : Reader Ron) : Reader (String × Ron) := do
  let name ← readName
  return (name, ← readAssigned value)

def startsField (cs : List Char) : Bool :=
  let start : Reader Unit := do
    filler
    let _ ← readName
    filler
    Reader.expect ':'
  (start cs).isSome

/-- The words that stand for a value of their own and take nothing in parentheses. -/
def plainWords : List String :=
  ["true", "false", "None", "inf", "inff32", "inff64", "NaN", "NaNf32", "NaNf64"]

def readBody (value : Reader Ron) (name? : Option String) : Reader Ron := fun cs =>
  if startsField cs then
    match Reader.items (layout ')') (readField value) cs with
    | some (entries, rest) =>
      if name? = some "Some" then none else some (.fields name? entries, rest)
    | none => none
  else
    match Reader.items (layout ')') value cs with
    | some (items, rest) =>
      if name? = some "Some" ∧ items.length ≠ 1 then none else some (.tuple name? items, rest)
    | none => none

/-- Reads what follows a name: its parentheses, if it has some. The value of `Some` may also
    stand bare. -/
def readAfterName (value : Reader Ron) (name : String) : Reader Ron := fun cs =>
  match skipFiller cs with
  -- blanks may stand between a name and its parentheses
  | some ('(' :: rest) =>
    if plainWords.contains name then none else readBody value (some name) rest
  | some rest =>
    if name = "Some" then (value rest).map fun p => (.tuple (some name) [p.1], p.2)
    else some (.atom name, cs)
  | none => if name = "Some" then none else some (.atom name, cs)

def readValue : Nat → Reader Ron
  | 0 => readLeaf
  | depth + 1 => fun
    | '[' :: cs =>
      (Reader.items (layout ']') (readValue depth) cs).map fun p => (.list p.1, p.2)
    | '\x7b' :: cs =>
      (Reader.items (layout '\x7d') (readPair (readValue depth)) cs).map fun p =>
        (.map p.1, p.2)
    | '(' :: cs => readBody (readValue depth) none cs
    | cs =>
      match readLeaf cs with
      | some (.atom name, rest) => readAfterName (readValue depth) name rest
      | other => other

def maxDepth : Nat := 128

/-! ## Documents -/

def extensions : List String :=
  ["implicit_some", "unwrap_newtypes", "unwrap_variant_newtypes", "explicit_struct_names"]

def readExtension : Reader Unit := do
  let name ← readName
  if extensions.contains name then pure () else failure

def readAttribute : Reader Unit := do
  Reader.expect '#'
  filler
  Reader.expect '!'
  filler
  Reader.expect '['
  filler
  Reader.literal ['e', 'n', 'a', 'b', 'l', 'e']
  filler
  Reader.expect '('
  let names ← Reader.items (layout ')') readExtension
  if names.isEmpty then failure
  filler
  Reader.expect ']'

def readAttributes : Nat → Reader Unit
  | 0 => pure ()
  | fuel + 1 => do
    filler
    if (← Reader.peek) = some '#' then
      readAttribute
      readAttributes fuel

def parse? (text : String) : Option Ron :=
  let document : Reader Ron := do
    readAttributes (text.length + 1)
    let value ← readValue maxDepth
    filler
    return value
  match document text.toList with
  | some (value, []) => some value
  | _ => none

end Spellcraft.Ron
