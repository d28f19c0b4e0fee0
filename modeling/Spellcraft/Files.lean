/-! # Files

What a run needs from the file system is the text of a file, or the reason why there is none.

* `Path.extension?` — what a file name ends in after its last dot;
* `Files` — texts by path;
* `Files.ofFolder` — a folder held in memory, as `Files`.
-/

namespace Spellcraft

inductive ReadFailure where
  | missing
  | directory
  | notDirectory
  deriving DecidableEq

namespace ReadFailure

def message : ReadFailure → String
  | .missing => "No such file or directory (os error 2)"
  | .directory => "Is a directory (os error 21)"
  | .notDirectory => "Not a directory (os error 20)"

end ReadFailure

namespace Path

def parts : List Char → List (List Char)
  | [] => [[]]
  | c :: cs =>
    if c = '/' then [] :: parts cs
    else
      match parts cs with
      | first :: rest => (c :: first) :: rest
      | [] => [[c]]

/-- The names on a path. Empty parts and single dots do not count. -/
def names (path : String) : List String :=
  ((parts path.toList).filter fun part => part != [] && part != ['.']).map String.ofList

/-- The part of a file name after its last dot. A dot in front starts no extension. -/
def extensionOfName? (name : List Char) : Option (List Char) :=
  let reversed := name.reverse
  match reversed.dropWhile (· != '.') with
  | _ :: _ :: _ => some (reversed.takeWhile (· != '.')).reverse
  | _ => none

/-- The extension of the last name on a path; two dots are no name. -/
def extension? (path : String) : Option String :=
  match (names path).getLast? with
  | some name =>
    if name = ".." then none else (extensionOfName? name.toList).map String.ofList
  | none => none

end Path

abbrev Files := String → Except ReadFailure String

namespace Files

def ancestors (names : List String) : List String :=
  (List.range (names.length - 1)).map fun n => "/".intercalate (names.take (n + 1))

/-- A folder with the given files, whose names may hold slashes; paths start in this folder. -/
def ofFolder (files : List (String × String)) : Files := fun path =>
  let names := Path.names path
  let file := "/".intercalate names
  let isFolder := !path.isEmpty && names.all (· == "..")
    || files.any fun f => f.1.startsWith (file ++ "/")
  -- nothing but the root itself is known outside of the folder
  if path.startsWith "/" && !names.isEmpty then .error .missing
  else if isFolder then .error .directory
  else
    match files.find? fun f => f.1 == file with
    | some f =>
      if path.endsWith "/" || path.endsWith "/." then .error .notDirectory else .ok f.2
    | none =>
      if (ancestors names).any fun above => files.any fun f => f.1 == above then
        .error .notDirectory
      else .error .missing

end Files

end Spellcraft
