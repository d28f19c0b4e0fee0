import Spellcraft.CommandLine.Settings
import Spellcraft.Options

/-! # Arguments

A run is asked to cast a spell, to describe one, or to list them all. An argument is

* a long option, `--name value` or `--name=value`;
* a short option, `-n value`, `-nvalue` or `-n=value`;
* a plain word; after `--` every argument is one.

The value of an option may not look like an option itself, unless it is joined to its name.
Arguments are read from left to right, and the first fault or request for help decides.
-/

namespace Spellcraft

/-- What a run is asked to do. -/
inductive Command where
  | cast (spell : String) (level : UInt32) (params : String) (source : CastSource)
      (mana? : Option Int32)
  | describe (spell : String)
  | list
  deriving DecidableEq

inductive Request where
  | run (command : Command)
  | help
  | version
  | rejected
  deriving DecidableEq

namespace Arguments

/-! ## Arguments one by one -/

inductive CastOption where
  | level
  | params
  | source
  | mana
  deriving DecidableEq

namespace CastOption

def ofName? : List Char → Option CastOption
  | ['l', 'e', 'v', 'e', 'l'] => some .level
  | ['p', 'a', 'r', 'a', 'm', 's'] => some .params
  | ['s', 'o', 'u', 'r', 'c', 'e'] => some .source
  | ['m', 'a', 'n', 'a'] => some .mana
  | _ => none

def ofLetter? : Char → Option CastOption
  | 'l' => some .level
  | 'p' => some .params
  | 's' => some .source
  | _ => none

end CastOption

/-- What one argument is. An option may carry its value. -/
inductive Argument where
  | word (text : String)
  | named (option : CastOption) (value? : Option String)
  | endOfOptions
  | help
  | unknown

namespace Argument

/-- A value joined to a short option, without the equals sign in front of it. -/
def joined? : List Char → Option String
  | [] => none
  | '=' :: value => some (String.ofList value)
  | value => some (String.ofList value)

def ofLong (cs : List Char) : Argument :=
  let name := cs.takeWhile (· != '=')
  let value? := match cs.dropWhile (· != '=') with
    | [] => none
    | _ :: value => some (String.ofList value)
  match CastOption.ofName? name, value? with
  | some option, value? => .named option value?
  | none, none => if name = ['h', 'e', 'l', 'p'] then .help else .unknown
  | none, some _ => .unknown

/-- Reads one argument. A single hyphen is a word. -/
def ofText (text : String) : Argument :=
  match text.toList with
  | ['-', '-'] => .endOfOptions
  | '-' :: '-' :: cs => ofLong cs
  | '-' :: c :: cs =>
    match CastOption.ofLetter? c with
    | some option => .named option (joined? cs)
    | none => if c = 'h' then .help else .unknown
  | _ => .word text

end Argument

/-! ## The cast command -/

structure CastDraft where
  spell? : Option String := none
  level? : Option UInt32 := none
  params? : Option String := none
  source? : Option CastSource := none
  mana? : Option Int32 := none

def levelOfText? (text : String) : Option UInt32 :=
  match integerOfText? text.toList with
  | some i => if 0 ≤ i ∧ i < 0x100000000 then some (UInt32.ofNat i.toNat) else none
  | none => none

namespace CastDraft

def giveSpell (d : CastDraft) (text : String) : Option CastDraft :=
  if d.spell?.isSome then none else some { d with spell? := some text }

def give (d : CastDraft) (option : CastOption) (text : String) : Option CastDraft :=
  match option with
  | .level =>
    if d.level?.isSome then none
    else (levelOfText? text).map fun level => { d with level? := some level }
  | .params =>
    if d.params?.isSome then none else some { d with params? := some text }
  | .source =>
    if d.source?.isSome then none
    else (CastSource.ofName? text).map fun source => { d with source? := some source }
  | .mana =>
    if d.mana?.isSome then none
    else (int32OfText? text.toList).map fun mana => { d with mana? := some mana }

def request (d : CastDraft) : Request :=
  match d.spell? with
  | some spell =>
    .run (.cast spell (d.level?.getD 1) (d.params?.getD "\x7b\x7d") (d.source?.getD .command)
      d.mana?)
  | none => .rejected

end CastDraft

def readWords (d : CastDraft) : List String → Request
  | [] => d.request
  | text :: rest =>
    match d.giveSpell text with
    | some d => readWords d rest
    | none => .rejected

def readCast (d : CastDraft) : List String → Request
  | [] => d.request
  | text :: rest =>
    match Argument.ofText text with
    | .word word =>
      match d.giveSpell word with
      | some d => readCast d rest
      | none => .rejected
    | .named option (some value) =>
      match d.give option value with
      | some d => readCast d rest
      | none => .rejected
    -- the value comes with the next argument
    | .named option none =>
      match rest with
      | value :: rest =>
        match Argument.ofText value with
        | .word word =>
          match d.give option word with
          | some d => readCast d rest
          | none => .rejected
        | _ => .rejected
      | [] => .rejected
    | .endOfOptions => readWords d rest
    | .help => .help
    | .unknown => .rejected

/-! ## The other commands -/

/-- What a command that takes no options makes of its plain words, `limit` of them at most. -/
def readPlain (limit : Nat) (finish : List String → Request) (ended : Bool)
    (words : List String) : List String → Request
  | [] => finish words
  | text :: rest =>
    match ended, Argument.ofText text with
    | true, _ | false, .word _ =>
      if words.length < limit then readPlain limit finish ended (words ++ [text]) rest
      else .rejected
    | false, .endOfOptions => readPlain limit finish true words rest
    | false, .help => .help
    | false, .named .. | false, .unknown => .rejected

def describeRequest : List String → Request
  | [spell] => .run (.describe spell)
  | _ => .rejected

def helpRequest : List String → Request
  | [] => .help
  | [command] =>
    if ["cast", "describe", "list", "help"].contains command then .help else .rejected
  | _ => .rejected

end Arguments

def Request.ofArguments : List String → Request
  | "cast" :: rest => Arguments.readCast {} rest
  | "describe" :: rest => Arguments.readPlain 1 Arguments.describeRequest false [] rest
  | "list" :: rest => Arguments.readPlain 0 (fun _ => .run .list) false [] rest
  | "help" :: rest => Arguments.helpRequest rest
  | "--version" :: _ => .version
  | text :: _ =>
    match text.toList, Arguments.Argument.ofText text with
    | '-' :: 'V' :: _, _ => .version
    | _, .help => .help
    | _, _ => .rejected
  | [] => .rejected

end Spellcraft
