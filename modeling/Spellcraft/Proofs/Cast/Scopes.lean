import Spellcraft.Scripted

/-! # Guards in guards

A guard is opened over a spell that may be under other guards already, and each of them holds a copy
of its own of what was live before it. Only the order in which they are given up puts the copies
back where they belong: a scope may be left at its end, early together with scopes around it, or by
a failure, and in every case the innermost guard goes first.

* `GuardedCode.run` — what code does to a spell, with a record of the scopes entered and left;
* `unwind` — the stack of what was live outside of the open scopes, held against such a record;
* `GuardedRun.unwinds_under`, `GuardedRun.config_under` — what one scope does;
* `GuardedCode.run_unwinds` — all scopes of a run.
-/

namespace Spellcraft

/-- How code is left: at its end; early, and then with a number of scopes around the innermost one;
    or by a failure. -/
inductive Departure where
  | ended
  | early (scopes : Nat)
  | failed
  deriving DecidableEq

def Departure.outside (catches : Bool) : Departure → Departure
  | .ended | .early 0 => .ended
  | .early (scopes + 1) => .early scopes
  | .failed => if catches then .ended else .failed

/-- A scope that was entered or left, and what was live outside of it. -/
inductive Crossing where
  | entered (live : SpellConfig)
  | left (departure : Departure) (live : SpellConfig)
  deriving DecidableEq

/-! ## Crossings and their stack -/

/-- Holds crossings against a stack. Entering a scope puts what is live on top; when a scope is
    left, what is on top has to be live again. -/
def unwind : List SpellConfig → List Crossing → Option (List SpellConfig)
  | stack, [] => some stack
  | stack, .entered live :: rest => unwind (live :: stack) rest
  | live :: stack, .left _ live' :: rest => if live' = live then unwind stack rest else none
  | [], .left _ _ :: _ => none

def Unwinds (crossings : List Crossing) : Prop :=
  ∀ stack later, unwind stack (crossings ++ later) = unwind stack later

namespace Unwinds

theorem nil : Unwinds [] := fun _ _ => rfl

theorem append {first second : List Crossing} (unwinds : Unwinds first)
    (unwinds' : Unwinds second) : Unwinds (first ++ second) := by
  intro stack later
  rw [List.append_assoc, unwinds, unwinds']

/-- A scope whose inner scopes are unwound is unwound, if what was live comes back. -/
theorem scope {inner : List Crossing} (unwinds : Unwinds inner) (live : SpellConfig)
    (departure : Departure) : Unwinds (.entered live :: (inner ++ [.left departure live])) := by
  intro stack later
  calc unwind stack (.entered live :: (inner ++ [.left departure live]) ++ later)
      = unwind (live :: stack) (inner ++ .left departure live :: later) := by simp [unwind]
    _ = unwind (live :: stack) (.left departure live :: later) := unwinds _ _
    _ = unwind stack later := by simp [unwind]

end Unwinds

/-! ## Runs -/

structure GuardedRun (S : Type) where
  spell : S
  departure : Departure
  crossings : List Crossing

namespace GuardedRun

variable {S : Type}

/-- Goes on after a scope, unless the code around it is left as well. -/
def andThen (first : GuardedRun S) (next : S → GuardedRun S) : GuardedRun S :=
  if first.departure = .ended then
    let more := next first.spell
    { more with crossings := first.crossings ++ more.crossings }
  else first

theorem unwinds_andThen {first : GuardedRun S} {next : S → GuardedRun S}
    (unwinds : Unwinds first.crossings) (later : ∀ spell, Unwinds (next spell).crossings) :
    Unwinds (first.andThen next).crossings := by
  unfold andThen
  split
  · exact unwinds.append (later _)
  · exact unwinds

variable [Castable S]

theorem config_andThen {first : GuardedRun S} {next : S → GuardedRun S}
    (kept : ∀ spell, Castable.config (next spell).spell = Castable.config spell) :
    Castable.config (first.andThen next).spell = Castable.config first.spell := by
  unfold andThen
  split
  · exact kept _
  · rfl

/-- Runs code in a scope of its own. The guard is given up in whatever way the code is left. -/
def under (config : SpellConfig) (catches : Bool) (body : S → GuardedRun S) (spell : S) :
    GuardedRun S :=
  let guard := Guard.apply spell config
  let inside := body guard.spell
  let restored := Guard.restore { guard with spell := inside.spell }
  { spell := restored
    departure := inside.departure.outside catches
    crossings := .entered (Castable.config spell) ::
      (inside.crossings ++ [.left inside.departure (Castable.config restored)]) }

variable [LawfulCastable S] (config : SpellConfig) (catches : Bool)

/-- What was live when a scope was entered is live when it has been left. -/
theorem config_under (body : S → GuardedRun S) (spell : S) :
    Castable.config (under config catches body spell).spell = Castable.config spell :=
  LawfulCastable.config_setConfig _ _

theorem unwinds_under {body : S → GuardedRun S} (inner : ∀ spell, Unwinds (body spell).crossings)
    (spell : S) : Unwinds (under config catches body spell).crossings := by
  have back := config_under config catches body spell
  unfold under at back ⊢
  dsimp only at back ⊢
  rw [back]
  exact (inner _).scope _ _

end GuardedRun

/-- Code that holds a spell: writes to its configuration and scopes under guards, up to the point at
    which the code is left. -/
inductive GuardedCode where
  | leave (departure : Departure)
  | write (config : SpellConfig) (rest : GuardedCode)
  | scope (config : SpellConfig) (catches : Bool) (body rest : GuardedCode)

namespace GuardedCode

variable {S : Type} [Castable S]

def run : GuardedCode → S → GuardedRun S
  | .leave departure, spell => ⟨spell, departure, []⟩
  | .write config rest, spell => rest.run (Castable.setConfig spell config)
  | .scope config catches body rest, spell =>
    (GuardedRun.under config catches body.run spell).andThen rest.run

def OnlyScopes : GuardedCode → Prop
  | .leave _ => True
  | .write _ _ => False
  | .scope _ _ _ rest => rest.OnlyScopes

variable [LawfulCastable S]

theorem unwinds_run (code : GuardedCode) (spell : S) : Unwinds (code.run spell).crossings := by
  induction code generalizing spell with
  | leave departure => exact .nil
  | write config rest ih => exact ih _
  | scope config catches body rest inner later =>
    exact GuardedRun.unwinds_andThen (GuardedRun.unwinds_under config catches inner spell) later

theorem config_run {code : GuardedCode} (scopes : code.OnlyScopes) (spell : S) :
    Castable.config (code.run spell).spell = Castable.config spell := by
  induction code generalizing spell with
  | leave departure => rfl
  | write config rest ih => exact scopes.elim
  | scope config catches body rest inner later =>
    -- nothing is asked of the body, which may write as it likes
    exact (GuardedRun.config_andThen (later scopes)).trans (GuardedRun.config_under ..)

/-- Whenever a scope is left, and in whatever way, that is live again which was live when it was
    entered. Code that writes nowhere but in scopes leaves the configuration as it was. -/
theorem run_unwinds (code : GuardedCode) (spell : S) :
    (∀ stack, unwind stack (code.run spell).crossings = some stack) ∧
      (code.OnlyScopes → Castable.config (code.run spell).spell = Castable.config spell) := by
  refine ⟨fun stack => ?_, fun scopes => config_run scopes spell⟩
  have closed := code.unwinds_run spell stack []
  rwa [List.append_nil] at closed

def powered (power : Int32) : SpellConfig := { baseSpellPower := power }

/-- The innermost scope fails and takes the one around it along, behind which this is caught. The
    code there goes on, writes, and leaves another scope early, together with its own. -/
def tangle : GuardedCode :=
  .scope (powered 1) false
    (.scope (powered 2) true
      (.scope (powered 3) false (.write (powered 4) (.leave .failed)) (.leave .ended))
      (.write (powered 5)
        (.scope (powered 6) false (.write (powered 7) (.leave (.early 1))) (.leave .ended))))
    (.leave .ended)

def held : ScriptedSpell where
  id := "held"
  name := "Held"
  schema := .empty
  live := powered 40

/-- Four scopes are entered and left in the order of a stack, the last two of them at once. -/
theorem run_unwinds_tangle :
    (tangle.run held).departure = .ended ∧
      (tangle.run held).crossings =
        [.entered (powered 40), .entered (powered 1), .entered (powered 2),
          .left .failed (powered 2), .left .failed (powered 1), .entered (powered 5),
          .left (.early 1) (powered 5), .left (.early 0) (powered 40)] ∧
      unwind [] (tangle.run held).crossings = some [] ∧ tangle.OnlyScopes ∧
      Castable.config (tangle.run held).spell = powered 40 := by
  have scopes : tangle.OnlyScopes := trivial
  obtain ⟨unwound, kept⟩ := run_unwinds tangle held
  exact ⟨by decide, by decide, unwound [], scopes, kept scopes⟩

end GuardedCode

end Spellcraft
