import Spellcraft.Json
import Spellcraft.Toml

/-! # TOML scalars

Keys, strings, numbers, truth values, dates and times.

* An integer is decimal without leading zeros, or hexadecimal, octal or binary without a sign;
  one that does not fit 128 bits, signed or unsigned, is refused.
* A float has a fraction or an exponent, or is `inf` or `nan`; a float too large for a double
  is refused.
* Single underscores may stand between digits.
* A date and a time are joined by `T` or a single blank; seconds may be left out.
-/

namespace Spellcraft.Toml

/-! ## Strings -/

def isPlain (c : Char) : Bool :=
  c = '\t' || (0x20 ≤ c.toNat && c.toNat != 0x7F)

def newline? : List Char → Option (List Char)
  | '\n' :: cs => some cs
  | '\r' :: '\n' :: cs => some cs
  | _ => none

def isSpace (c : Char) : Bool := c = ' ' || c = '\t'

def readScalar (count : Nat) : Reader Char := fun cs =>
  let digits := cs.take count
  if digits.length = count ∧ digits.all fun c => (digitValue? 16 c).isSome then
    let n := digitsValue 16 digits
    if n.isValidChar then some (Char.ofNat n, cs.drop count) else none
  else none

def readEscape : Reader Char := fun
  | 'b' :: cs => some ('\x08', cs)
  | 't' :: cs => some ('\t', cs)
  | 'n' :: cs => some ('\n', cs)
  | 'f' :: cs => some ('\x0c', cs)
  | 'r' :: cs => some ('\r', cs)
  | 'e' :: cs => some ('\x1b', cs)
  | '"' :: cs => some ('"', cs)
  | '\\' :: cs => some ('\\', cs)
  | 'x' :: cs => readScalar 2 cs
  | 'u' :: cs => readScalar 4 cs
  | 'U' :: cs => readScalar 8 cs
  | _ => none

def skipLines : Nat → List Char → List Char
  | 0, cs => cs
  | fuel + 1, cs =>
    match cs with
    | ' ' :: rest | '\t' :: rest => skipLines fuel rest
    | _ =>
      match newline? cs with
      | some rest => skipLines fuel rest
      | none => cs

/-- Reads what follows a backslash in a string of several lines: an escape, or the end of a line,
    which drops all blanks up to the next text. -/
def readLineEscape (cs : List Char) : Option (List Char × List Char) :=
  match newline? (cs.dropWhile isSpace) with
  | some rest => some ([], skipLines rest.length rest)
  | none => (readEscape cs).map fun p => ([p.1], p.2)

structure Quoting where
  quote : Char
  escapes : Bool
  lines : Bool

def readLineFrom (q : Quoting) : Nat → Reader (List Char)
  | 0, _ => none
  | _ + 1, [] => none
  | fuel + 1, c :: cs =>
    if c = q.quote then some ([], cs)
    else if c = '\\' ∧ q.escapes then
      match readEscape cs with
      | none => none
      | some (c, cs) => (readLineFrom q fuel cs).map fun p => (c :: p.1, p.2)
    else if isPlain c then (readLineFrom q fuel cs).map fun p => (c :: p.1, p.2)
    else none

/-- Reads a string of several lines up to its closing quotes. Up to two quotes may stand directly
    before them. -/
def readLinesFrom (q : Quoting) : Nat → Reader (List Char)
  | 0, _ => none
  | fuel + 1, cs =>
    let quotes := (cs.takeWhile (· = q.quote)).length
    -- of a run of quotes the last three close the string
    if 3 ≤ quotes then
      if quotes ≤ 5 then some (List.replicate (quotes - 3) q.quote, cs.drop quotes) else none
    else
      match newline? cs with
      | some rest => (readLinesFrom q fuel rest).map fun p => ('\n' :: p.1, p.2)
      | none =>
        match cs with
        | [] => none
        | c :: rest =>
          if c = '\\' ∧ q.escapes then
            match readLineEscape rest with
            | none => none
            | some (text, rest) =>
              (readLinesFrom q fuel rest).map fun p => (text ++ p.1, p.2)
          else if isPlain c then (readLinesFrom q fuel rest).map fun p => (c :: p.1, p.2)
          else none

def readQuotedLine : Reader String := fun
  | '"' :: cs =>
    (readLineFrom ⟨'"', true, false⟩ (cs.length + 1) cs).map fun p => (String.ofList p.1, p.2)
  | '\'' :: cs =>
    (readLineFrom ⟨'\'', false, false⟩ (cs.length + 1) cs).map fun p =>
      (String.ofList p.1, p.2)
  | _ => none

/-- Reads a string of several lines after its opening quotes; a line end right after them does
    not count. -/
def readQuotedLines (q : Quoting) (cs : List Char) : Option (String × List Char) :=
  let cs := (newline? cs).getD cs
  (readLinesFrom q (cs.length + 1) cs).map fun p => (String.ofList p.1, p.2)

def readString : Reader String := fun
  | '"' :: '"' :: '"' :: cs => readQuotedLines ⟨'"', true, true⟩ cs
  | '\'' :: '\'' :: '\'' :: cs => readQuotedLines ⟨'\'', false, true⟩ cs
  | cs => readQuotedLine cs

/-! ## Keys -/

def isBareKey (c : Char) : Bool := c.isAlphanum || c = '_' || c = '-'

def readSimpleKey : Reader String := fun cs =>
  match cs.takeWhile isBareKey with
  | [] => readQuotedLine cs
  | name => some (String.ofList name, cs.dropWhile isBareKey)

def readKeyFrom : Nat → Reader (List String)
  | 0, _ => none
  | fuel + 1, cs =>
    match readSimpleKey (cs.dropWhile isSpace) with
    | none => none
    | some (name, cs) =>
      match cs.dropWhile isSpace with
      | '.' :: cs => (readKeyFrom fuel cs).map fun p => (name :: p.1, p.2)
      | cs => some ([name], cs)

def readKey : Reader (List String × String) := fun cs =>
  match readKeyFrom (cs.length + 1) cs with
  | none => none
  | some (parts, rest) => parts.getLast?.map fun last => ((parts.dropLast, last), rest)

/-! ## Numbers -/

/-- The digits of a number in which single underscores may stand between digits. -/
def plainDigits? (base : Nat) : List Char → Option (List Char)
  | [] => none
  | [c] => if (digitValue? base c).isSome then some [c] else none
  | c :: '_' :: cs =>
    if (digitValue? base c).isSome then (plainDigits? base cs).map (c :: ·) else none
  | c :: cs =>
    if (digitValue? base c).isSome then (plainDigits? base cs).map (c :: ·) else none

def wholeDigits? (cs : List Char) : Option (List Char) :=
  match plainDigits? 10 cs with
  | some ('0' :: _ :: _) => none
  | other => other

/-- Splits off a sign; `true` stands for a minus. -/
def splitSign : List Char → Bool × List Char
  | '-' :: cs => (true, cs)
  | '+' :: cs => (false, cs)
  | cs => (false, cs)

def integer? (word : List Char) : Option Int :=
  match word with
  | '0' :: 'x' :: digits => (plainDigits? 16 digits).map fun ds => (digitsValue 16 ds : Int)
  | '0' :: 'o' :: digits => (plainDigits? 8 digits).map fun ds => (digitsValue 8 ds : Int)
  | '0' :: 'b' :: digits => (plainDigits? 2 digits).map fun ds => (digitsValue 2 ds : Int)
  | _ =>
    let (negative, digits) := splitSign word
    (wholeDigits? digits).map fun ds =>
      if negative then -(digitsValue 10 ds : Int) else digitsValue 10 ds

def fraction? : List Char → Option (List Char)
  | '.' :: cs => plainDigits? 10 cs
  | [] => some []
  | _ => none

def exponent? : List Char → Option Int
  | [] => some 0
  | _ :: cs =>
    let (negative, digits) := splitSign cs
    (plainDigits? 10 digits).map fun ds =>
      if negative then -(digitsValue 10 ds : Int) else digitsValue 10 ds

def float? (word : List Char) : Option Binary64 :=
  let (negative, word) := splitSign word
  if word = ['i', 'n', 'f'] then some (Binary.infinite .double negative)
  else if word = ['n', 'a', 'n'] then some (Binary.nan .double)
  else
    let isMark (c : Char) : Bool := c = 'e' || c = 'E'
    let mantissa := word.takeWhile (!isMark ·)
    let power := word.dropWhile (!isMark ·)
    let whole := mantissa.takeWhile (· != '.')
    let part := mantissa.dropWhile (· != '.')
    if part.isEmpty && power.isEmpty then none
    else
      match wholeDigits? whole, fraction? part, exponent? power with
      | some whole, some part, some exponent =>
        let x := Binary.ofDecimal .double negative (digitsValue 10 (whole ++ part))
          (exponent - part.length)
        if x.isInfinite then none else some x
      | _, _, _ => none

/-! ## Dates and times -/

def fixedDigits? (count : Nat) (cs : List Char) : Option Nat :=
  if cs.length = count ∧ cs.all isDigit then some (digitsValue 10 cs) else none

def daysIn (year month : Nat) : Nat :=
  if month = 2 then
    if (year % 4 = 0 ∧ year % 100 ≠ 0) ∨ year % 400 = 0 then 29 else 28
  else if month = 4 ∨ month = 6 ∨ month = 9 ∨ month = 11 then 30
  else 31

def isDate (word : List Char) : Bool :=
  match fixedDigits? 4 (word.take 4), word.drop 4 with
  | some year, '-' :: word =>
    match fixedDigits? 2 (word.take 2), word.drop 2 with
    | some month, '-' :: day =>
      match fixedDigits? 2 day with
      | some day => 1 ≤ month && month ≤ 12 && 1 ≤ day && day ≤ daysIn year month
      | none => false
    | _, _ => false
  | _, _ => false

def isTwoDigits (limit : Nat) (cs : List Char) : Bool :=
  match fixedDigits? 2 cs with
  | some n => n ≤ limit
  | none => false

def isSeconds : List Char → Bool
  | [] => true
  | ':' :: cs =>
    isTwoDigits 60 (cs.take 2) &&
      match cs.drop 2 with
      | [] => true
      | '.' :: fraction => !fraction.isEmpty && fraction.all isDigit
      | _ => false
  | _ => false

def isTime (word : List Char) : Bool :=
  isTwoDigits 23 (word.take 2) && (word.drop 2).head? == some ':' &&
    isTwoDigits 59 ((word.drop 3).take 2) && isSeconds (word.drop 5)

def isOffset : List Char → Bool
  | [] => true
  | ['Z'] | ['z'] => true
  | sign :: cs =>
    (sign = '+' || sign = '-') && isTwoDigits 23 (cs.take 2) && (cs.drop 2).head? == some ':' &&
      isTwoDigits 59 (cs.drop 3)

/-- Whether a word is a date, a time, or both joined, with an offset only after both. -/
def isDatetime (word : List Char) : Bool :=
  if isTime word || isDate word then true
  else
    match word.drop 10 with
    | [] => false
    | joint :: rest =>
      let isZone (c : Char) : Bool := c = 'Z' || c = 'z' || c = '+' || c = '-'
      isDate (word.take 10) && (joint = 'T' || joint = 't' || joint = ' ') &&
        isTime (rest.takeWhile (!isZone ·)) && isOffset (rest.dropWhile (!isZone ·))

/-! ## Words -/

def isWord (c : Char) : Bool :=
  c.isAlphanum || c = '_' || c = '-' || c = '+' || c = '.' || c = ':'

/-- Reads a scalar without quotes. A date takes in the time that follows it after one blank. -/
def readWord : Reader (List Char) := fun cs =>
  let word := cs.takeWhile isWord
  let rest := cs.dropWhile isWord
  match isDate word, rest with
  | true, ' ' :: more =>
    match more with
    | c :: _ =>
      if isDigit c then some (word ++ ' ' :: more.takeWhile isWord, more.dropWhile isWord)
      else some (word, rest)
    | [] => some (word, rest)
  | _, _ => some (word, rest)

def word? (word : List Char) : Option Toml :=
  if word = ['t', 'r', 'u', 'e'] then some (.boolean true)
  else if word = ['f', 'a', 'l', 's', 'e'] then some (.boolean false)
  else if isDatetime word then some .datetime
  else
    match integer? word with
    | some i => if fits128 i then some (.integer i) else none
    | none => (float? word).map .float

end Spellcraft.Toml
