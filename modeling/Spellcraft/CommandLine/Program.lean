import Spellcraft.Catalog.Book
import Spellcraft.Catalog.Builtin
import Spellcraft.Catalog.Document
import Spellcraft.Catalog.Server
import Spellcraft.CommandLine.Arguments
import Spellcraft.CommandLine.Dotenv
import Spellcraft.Config.Table

/-! # The program

One run lists the spells of a catalog, describes one, or casts one. It depends on nothing but its
arguments, the environment and the texts of some files, and comes to an exit code and what is
written to the two outputs.

The files are opened in a fixed order: server configuration, catalog, and the override table when
the book is built. A broken override table is only noted; any other fault ends the run.
-/

namespace Spellcraft

structure RunResult where
  exitCode : Nat
  output : String
  errors : String
  deriving DecidableEq

structure Workspace where
  loader : Loader
  server : ServerConfig
  book : SpellBook

inductive RunError where
  | content (error : ContentError)
  | schema (error : SchemaError)
  | unknownSpell (id : String)
  | cast (error : CastError)
  | brokenOff (reason : String)
  deriving DecidableEq

namespace RunError

def indented (text : String) : String :=
  "    " ++ String.join (text.toList.map fun c => if c = '\n' then "\n    " else c.toString)

def message : RunError → String
  | .content e => e.message
  | .schema e =>
    "Failed to build spell book\n\nCaused by:\n" ++ indented (Diagnostic.message e)
  | .unknownSpell id => "Unknown spell: " ++ id
  | .cast e =>
    Diagnostic.message e ++ " (" ++ Diagnostic.code e ++ ", " ++ e.phase.name ++ ")"
  | .brokenOff reason => reason

end RunError

namespace Workspace

def ofSettings (settings : Settings) (files : Files) : Except RunError Workspace := do
  let source := match settings.parametersPath? with
    | some path => TableSource.ofFile files path
    | none => .builtin
  let server ← match settings.serverPath? with
    | some path => (ServerConfig.ofFile files path).mapError .content
    | none => .ok {}
  let catalog ← match settings.catalogPath? with
    | some path => (SpellCatalog.ofFile files path).mapError .content
    | none => .ok builtinCatalog
  let built := SpellBook.ofDefinitions catalog (.ofSource source) server
  let book ← built.value.mapError .schema
  return { loader := built.loader, server, book }

/-- A caster with some mana, and the cooldown multipliers of the server that change anything. -/
def caster (w : Workspace) (mana : Int32) : Caster where
  id := .nil
  mana
  modifiers := w.server.spells.filterMap fun tuning =>
    let one := Binary.ofInt .double 1
    if tuning.cooldownMultiplier.le one && one.le tuning.cooldownMultiplier then none
    else some tuning.cooldownMultiplier

end Workspace

/-! ## What the commands print -/

def padded (width : Nat) (text : String) : String :=
  text ++ String.ofList (List.replicate (width - text.length) ' ')

def listLine (s : CatalogSpell) : String :=
  padded 12 s.definition.id ++ " " ++ padded 16 s.definition.name ++ " "
    ++ (if s.definition.parameterized then "parameterized" else "fixed") ++ "\n"

def description (s : CatalogSpell) : String :=
  s.definition.name ++ " (" ++ s.definition.id ++ ")\n"
    ++ (if s.definition.parameterized then "" else "  casts with its fixed configuration only\n")
    ++ s.schema.usage

def CastEvent.summary : CastEvent → String
  | .started _ spell _ duration => spell ++ " started, " ++ toString duration.toInt ++ " ticks"
  | .finished _ spell interrupted =>
    spell ++ " finished, interrupted=" ++ (if interrupted then "true" else "false")
  | .manaChanged _ mana => "mana now " ++ toString mana.toInt
  | .effectReplay spell _ _ data =>
    match Parameters.ofCompound data with
    | .ok params =>
      spell ++ " effects with " ++ toString params.values.size ++ " parameters"
    | .error e => spell ++ " effects, unreadable payload: " ++ Diagnostic.message e

def Notification.line (n : Notification) : String :=
  "  [" ++ n.audience.name ++ "] " ++ n.event.summary ++ "\n"

def CastReport.lines (r : CastReport) : String :=
  r.message ++ "\n" ++
    if r.fallback then ""
    else
      "  level " ++ toString r.level.toNat
        ++ " | power " ++ toString (r.config.spellPower r.level).toInt
        ++ " | cast time " ++ toString r.config.castTime.toInt
        ++ " | cooldown " ++ r.config.cooldown.text ++ "s\n"
        ++ (match r.manaCost? with
          | some cost => "  mana cost " ++ toString cost.toInt ++ "\n"
          | none => "")
        ++ (match r.cooldownTicks? with
          | some ticks => "  cooldown " ++ toString ticks.toInt ++ " ticks\n"
          | none => "")

/-! ## Runs -/

structure Transcript where
  output : String
  failed? : Option RunError := none

namespace Transcript

def failed (error : RunError) : Transcript := ⟨"", some error⟩

def result (t : Transcript) : RunResult :=
  match t.failed? with
  | none => ⟨0, t.output, ""⟩
  | some error => ⟨1, t.output, "Error: " ++ error.message ++ "\n"⟩

end Transcript

namespace Workspace

variable (w : Workspace)

def cast (spell : String) (level : UInt32) (params : String) (source : CastSource)
    (mana : Int32) : Transcript :=
  let result := castText w.book (w.caster mana) w.loader source spell level params
  let events := String.join (result.told.map Notification.line)
  match result.answer with
  | .ok report =>
    ⟨events ++ report.lines ++ "mana: " ++ toString mana.toInt ++ " -> "
      ++ toString result.caster.mana.toInt ++ "\n", none⟩
  | .error (.failed e) => ⟨events, some (.cast e)⟩
  | .error (.brokenOff reason) => ⟨events, some (.brokenOff reason)⟩

def describe (spell : String) : Transcript :=
  match w.book.find? spell with
  | some s => ⟨description s, none⟩
  | none => .failed (.unknownSpell spell)

def list : Transcript := ⟨String.join (w.book.spells.values.map listLine), none⟩

def run (mana : Int32) : Command → Transcript
  | .cast spell level params source mana? =>
    w.cast spell level params source (mana?.getD mana)
  | .describe spell => w.describe spell
  | .list => w.list

end Workspace

def usageText : String :=
  "Cast and inspect parameterized spells\n\n"
    ++ "Usage: spell-cli <COMMAND>\n\n"
    ++ "Commands:\n"
    ++ "  cast      Cast a spell with optional JSON parameters\n"
    ++ "  describe  Show the parameters a spell accepts\n"
    ++ "  list      List every spell in the catalog\n"
    ++ "  help      Print this message or the help of the given subcommand(s)\n\n"
    ++ "Options:\n"
    ++ "  -h, --help     Print help\n"
    ++ "  -V, --version  Print version\n"

def versionText : String := "spell-cli 0.1.0\n"

def environmentFile : String := ".env"

/-- The settings of a run: those of its variables, and of the environment file beneath them. -/
def runSettings (bindings : Entries String) (files : Files) : Settings :=
  let bindings := match files environmentFile with
    | .ok text => Dotenv.extend bindings text
    | .error _ => bindings
  Settings.ofEnvironment (Entries.find? bindings)

/-- One run of the program. Rejected arguments end it without a word. -/
def run (arguments : List String) (bindings : Entries String) (files : Files) : RunResult :=
  match Request.ofArguments arguments with
  | .rejected => ⟨2, "", ""⟩
  | .help => ⟨0, usageText, ""⟩
  | .version => ⟨0, versionText, ""⟩
  | .run command =>
    let settings := runSettings bindings files
    match Workspace.ofSettings settings files with
    | .error e => (Transcript.failed e).result
    | .ok w => (w.run settings.casterMana command).result

end Spellcraft
