import Spellcraft.CommandLine.Program

/-! # Command line

Takes arguments, variables and files from the system, runs the program, and writes what it came
to.
-/

namespace Spellcraft

def readSystemFile (path : String) : IO (Except ReadFailure String) := do
  try
    return .ok (← IO.FS.readFile path)
  catch e =>
    match e with
    | .inappropriateType .. => return .error .directory
    | .illegalOperation .. => return .error .directory
    | .resourceExhausted .. => return .error .directory
    | _ => return .error .missing

def settingNames : List String :=
  ["SPELL_PARAMETERS_PATH", "SPELL_CATALOG_PATH", "SPELL_SERVER_CONFIG", "SPELL_CASTER_MANA",
    "SPELL_LOG_DIR", "SPELL_SESSION_ID"]

end Spellcraft

open Spellcraft in
def main (arguments : List String) : IO UInt32 := do
  let bindings ← settingNames.filterMapM fun name => do
    return (← IO.getEnv name).map (name, ·)
  let environment ← readSystemFile environmentFile
  let only : Files := fun path => if path = environmentFile then environment else .error .missing
  let settings := runSettings bindings only
  let paths := [settings.parametersPath?, settings.catalogPath?, settings.serverPath?]
  let texts ← (paths.filterMap id).mapM fun path => do
    return (path, ← readSystemFile path)
  let files : Files := fun path =>
    match texts.find? fun t => t.1 == path with
    | some (_, text) => text
    | none => only path
  let result := run arguments bindings files
  IO.print result.output
  IO.eprint result.errors
  return UInt32.ofNat result.exitCode
