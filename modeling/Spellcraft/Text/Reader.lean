/-! # Readers of text

A reader takes a value off the front of a list of characters and returns the rest, or fails.
The text formats are built from readers; what they share is here:

* `Reader.expect` and `Reader.literal` — fixed characters;
* `Reader.items` — a list up to a closing character, with or without a trailing separator.
-/

namespace Spellcraft

abbrev Reader (α : Type) := StateT (List Char) Option α

namespace Reader

variable {α : Type}

def expect (c : Char) : Reader Unit := fun
  | d :: rest => if d = c then some ((), rest) else none
  | [] => none

def literal : List Char → Reader Unit
  | [], cs => some ((), cs)
  | _ :: _, [] => none
  | c :: more, d :: cs => if d = c then literal more cs else none

def peek : Reader (Option Char) := fun cs => some (cs.head?, cs)

/-- How a list is laid out: what may stand between two lexemes, the separator, the closing
    character, and whether a separator may come last. -/
structure Layout where
  skip : List Char → Option (List Char)
  separator : Char
  close : Char
  trailing : Bool

/-- The items of a list after its opening character, the closing one included. Every item takes
    at least one character, so the length of the text bounds their number. -/
def itemsFrom (layout : Layout) (item : Reader α) (mayClose : Bool) :
    Nat → Reader (List α)
  | 0, _ => none
  | fuel + 1, cs =>
    match layout.skip cs with
    | none => none
    | some cs =>
      -- after a separator the list may end here only if the layout lets one come last
      if mayClose && cs.head? == some layout.close then some ([], cs.drop 1)
      else
        match item cs with
        | none => none
        | some (a, cs) =>
          match layout.skip cs with
          | none => none
          | some [] => none
          | some (c :: cs) =>
            if c = layout.separator then
              match itemsFrom layout item layout.trailing fuel cs with
              | some (as, cs) => some (a :: as, cs)
              | none => none
            else if c = layout.close then some ([a], cs)
            else none

def items (layout : Layout) (item : Reader α) : Reader (List α) := fun cs =>
  itemsFrom layout item true (cs.length + 1) cs

end Reader

end Spellcraft
