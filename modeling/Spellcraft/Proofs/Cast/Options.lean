import Mathlib.Tactic.IntervalCases
import Spellcraft.Proofs.Cast.Run
import Spellcraft.Proofs.Number.Integers
import Spellcraft.Proofs.Schema.Flags
import Spellcraft.Scripted

/-! # The options of a cast

A cast has the flags of its source, except for those that its parameters name. On their way to the
options the parameters are validated: the name of a flag may be an alias, its value may be a number,
and for other fields defaults are filled in. None of this blurs the picture.

* `CastOptions.get_ofParameters` — one flag of the options, read off validated parameters;
* `CastOptions.testBit_bits` — the bits of options are those of the flags that are set;
* `Schema.Flagged` — which options parameters ask for, read off the parameters as they were given;
* `castWith_options` — a cast is carried out with these options, and reports them.
-/

namespace Spellcraft

namespace CastOptions

theorem ext_get {o o' : CastOptions} (same : ∀ flag, o.get flag = o'.get flag) : o = o' := by
  have consumes := same .consumeMana
  have triggers := same .triggerCooldown
  have plays := same .playEffects
  have bypasses := same .bypassConditions
  have shows := same .showCastBar
  cases o
  cases o'
  simp only [get] at *
  simp [*]

theorem get_overrideFlag (params : Parameters) (o : CastOptions) (flag other : CastFlag) :
    (overrideFlag params o flag).get other =
      if other = flag then (params.bool? flag.key).getD (o.get other) else o.get other := by
  unfold overrideFlag
  by_cases same : other = flag
  · subst same
    cases params.bool? other.key with
    | none => simp
    | some enabled => simp
  · rw [if_neg same]
    cases params.bool? flag.key with
    | none => rfl
    | some enabled => exact get_set_of_ne o enabled same

theorem get_foldl_overrideFlag (params : Parameters) (flag : CastFlag) (flags : List CastFlag)
    (o : CastOptions) :
    (flags.foldl (overrideFlag params) o).get flag =
      if flag ∈ flags then (params.bool? flag.key).getD (o.get flag) else o.get flag := by
  induction flags generalizing o with
  | nil => rfl
  | cons first rest ih =>
    rw [List.foldl_cons, ih, get_overrideFlag]
    by_cases here : flag = first
    · subst here
      cases params.bool? flag.key <;> simp
    · simp [here]

theorem get_ofParameters (source : CastSource) (params : Parameters) (flag : CastFlag) :
    (ofParameters source params).get flag =
      (params.bool? flag.key).getD (source.options.get flag) := by
  have listed : flag ∈ CastFlag.all := by cases flag <;> decide
  rw [ofParameters, get_foldl_overrideFlag, if_pos listed]

theorem ofParameters_of_unflagged {source : CastSource} {params : Parameters}
    (unflagged : ∀ flag : CastFlag, params.find? flag.key = none) :
    ofParameters source params = source.options := by
  refine ext_get fun flag => ?_
  rw [get_ofParameters, Parameters.bool?, unflagged]
  rfl

theorem bit_eq_iff (flag : CastFlag) (i : Nat) :
    flag.bit = 2 ^ i ↔ CastFlag.all[i]? = some flag := by
  rcases Nat.lt_or_ge i 5 with low | high
  · interval_cases i <;> cases flag <;> decide
  · have large : 2 ^ 5 ≤ 2 ^ i := Nat.pow_le_pow_right Nat.two_pos high
    have small : flag.bit < 2 ^ 5 := by cases flag <;> decide
    have none : CastFlag.all[i]? = none := List.getElem?_eq_none high
    simp only [none, reduceCtorEq, iff_false]
    omega

theorem bits_eq (o : CastOptions) :
    o.bits = (BitVec.ofBoolListLE (CastFlag.all.map o.get)).toNat := by
  obtain ⟨consumes, triggers, plays, bypasses, shows⟩ := o
  cases consumes <;> cases triggers <;> cases plays <;> cases bypasses <;> cases shows <;> rfl

/-- The bits of options are those of the flags that are set, and no others. -/
theorem testBit_bits (o : CastOptions) (i : Nat) :
    o.bits.testBit i = true ↔ ∃ flag : CastFlag, flag.bit = 2 ^ i ∧ o.get flag = true := by
  simp only [bits_eq, BitVec.testBit_toNat, BitVec.getLsbD_ofBoolListLE, bit_eq_iff,
    List.getD_eq_getElem?_getD, List.getElem?_map]
  cases CastFlag.all[i]? <;> simp

end CastOptions

/-! ## What parameters say of flags -/

/-- What a value says of a flag: a truth value itself, and a number whether anything is left of it
    when it is made an integer. -/
def Value.toFlag? : Value → Option Bool
  | .boolean enabled => some enabled
  | other => other.toInt?.map (· != 0)

theorem Kind.normalize_boolean (value : Value) :
    Kind.boolean.normalize value = value.toFlag?.map .boolean := by
  cases value with
  | int i => simp [normalize, Value.toFlag?, Value.toInt?, Value.toDouble?, Binary.toInt32_ofInt]
  | float x => simp [normalize, Value.toFlag?, Value.toInt?, Value.toDouble?]
  | double x => simp [normalize, Value.toFlag?, Value.toInt?, Value.toDouble?]
  | _ => rfl

namespace Schema

variable (s : Schema)

def NamesFlag (flag : CastFlag) (key : String) : Prop :=
  key = flag.key ∨ (key, flag.key) ∈ s.aliases

instance (flag : CastFlag) (key : String) : Decidable (s.NamesFlag flag key) :=
  inferInstanceAs (Decidable (_ ∨ _))

/-- The options that parameters ask for: each flag that one of their entries names is set as this
    says, and each other one as the source of the cast says. -/
structure Flagged (source : CastSource) (params : Parameters) (options : CastOptions) : Prop where
  named : ∀ flag, ∀ e ∈ params.entries, s.NamesFlag flag e.1 →
    e.2.toFlag? = some (options.get flag)
  silent : ∀ flag, (∀ e ∈ params.entries, ¬ s.NamesFlag flag e.1) →
    options.get flag = source.options.get flag

variable {s} {source : CastSource} {params : Parameters}

theorem resolve?_flag_iff (built : SchemaBuilder.Builds s) (flag : CastFlag) (key : String) :
    s.resolve? key = some flag.key ↔ s.NamesFlag flag key := by
  rw [built.soundAliases.resolve?_iff, definition?_flag built.sound flag]
  simp [NamesFlag]

/-- Nothing but the entries that name flags has a say in the options. -/
theorem Flagged.congr {other : Parameters} {options options' : CastOptions}
    (flagged : s.Flagged source params options) (flagged' : s.Flagged source other options')
    (same : ∀ flag e, s.NamesFlag flag e.1 → (e ∈ params.entries ↔ e ∈ other.entries)) :
    options = options' := by
  refine CastOptions.ext_get fun flag => ?_
  by_cases named : ∃ e ∈ params.entries, s.NamesFlag flag e.1
  · obtain ⟨e, member, names⟩ := named
    have here := flagged.named flag e member names
    have there := flagged'.named flag e ((same flag e names).mp member) names
    exact Option.some.inj (here.symm.trans there)
  · simp only [not_exists, not_and] at named
    rw [flagged.silent flag named, flagged'.silent flag fun e member names =>
      named e ((same flag e names).mpr member) names]

/-- The options of validated parameters are those that the parameters asked for before. -/
theorem flagged_ofParameters (built : SchemaBuilder.Builds s) {normal : Parameters}
    (valid : (s.validate params).toExcept = .ok normal) :
    s.Flagged source params (.ofParameters source normal) := by
  have of_find? (flag : CastFlag) : (CastOptions.ofParameters source normal).get flag =
      ((normal.find? flag.key).bind Value.toBool?).getD (source.options.get flag) :=
    CastOptions.get_ofParameters source normal flag
  constructor
  · intro flag e member names
    have resolved := (resolve?_flag_iff built flag e.1).mpr names
    obtain ⟨field, stored, defined, normalized, found⟩ := find?_of_entry built valid member resolved
    -- the field of a flag holds a truth value, which is what the entry says of the flag
    rw [definition?_flag built.sound flag, Option.some.injEq] at defined
    rw [← defined] at normalized
    change Kind.boolean.normalize e.2 = some stored at normalized
    rw [Kind.normalize_boolean, Option.map_eq_some_iff] at normalized
    obtain ⟨enabled, said, rfl⟩ := normalized
    simp [of_find?, found, said, Value.toBool?]
  · intro flag silent
    have unnamed : ¬ s.Names params flag.key := by
      rintro ⟨key, among, resolved⟩
      obtain ⟨e, member, rfl⟩ := List.mem_map.mp among
      exact silent e member ((resolve?_flag_iff built flag e.1).mp resolved)
    simp [of_find?, find?_flag built valid flag unnamed]

end Schema

/-! ## Casts from a registry -/

section

variable {S R : Type} [Castable S] [Registry R S] (registry : R) (caster : Caster)
  (loader : Loader) (source : CastSource) (id : String) (level : UInt32) {params : Parameters}

/-- A cast whose parameters the schema accepts is performed with the options that the parameters ask
    for, and reports these. Their bits are those of the flags that are set. Other parameters with
    the same entries for flags have the same options. -/
theorem castWith_options {spell : S} (found : Registry.find? registry id = some spell)
    (parameterized : Castable.isParameterized spell = true)
    (built : SchemaBuilder.Builds (Castable.schema spell))
    (accepts : (Castable.schema spell).Accepts params) :
    let s := Castable.schema spell
    let start : Stage S := { spell, caster, loader }
    let result := castWith registry caster loader source id level params
    ∃ normal options,
      (s.validate params).toExcept = .ok normal ∧
      s.Flagged source params options ∧
      (∀ i, options.bits.testBit i = true ↔
        ∃ flag : CastFlag, flag.bit = 2 ^ i ∧ options.get flag = true) ∧
      (∀ other normal', (s.validate other).toExcept = .ok normal' →
        (∀ flag e, s.NamesFlag flag e.1 → (e ∈ params.entries ↔ e ∈ other.entries)) →
        CastOptions.ofParameters source normal' = options) ∧
      (let resolved := (CastM.resolution params start normal).value
       let performed := CastM.finish
         (CastM.perform (Castable.id spell) level source normal resolved options)
         ((CastM.prepared params start normal).configured resolved)
       result.caster = performed.2.caster ∧ result.told = performed.2.told) ∧
      ∀ report, result.answer = .ok report → report.options = options := by
  intro s start result
  have valid : (s.validate params).toExcept = .ok (s.validate params).normalized :=
    if_pos ((Schema.isSuccess_iff built params).mpr accepts)
  have flagged : s.Flagged source params (.ofParameters source _) :=
    Schema.flagged_ofParameters built valid
  have casts : result = _ :=
    castWith_of_parameterized registry caster loader source id level params found parameterized
  refine ⟨_, _, valid, flagged, CastOptions.testBit_bits _, ?_, ?_, ?_⟩
  · intro other normal' valid' same
    exact (flagged.congr (Schema.flagged_ofParameters built valid') same).symm
  · obtain ⟨-, caster, -, told⟩ :=
      CastM.left_castParameterized_of_ok level source params start valid
    rw [casts]
    exact ⟨caster, told⟩
  · intro report reported
    rw [casts] at reported
    obtain ⟨executed, barStarted, rfl⟩ :=
      CastM.report_of_castParameterized level source params start valid reported
    rfl

end

def whisperCalls : List Declaration :=
  [.field "force" .int (.optional (.int 3)) "How hard", .synonym "loud" "playEffects"]

def whisper : ScriptedSpell where
  id := "whisper"
  name := "Whisper"
  schema := match (SchemaBuilder.empty.declareAll whisperCalls).build with
    | .ok s => s
    | .error _ => .empty
  live := {}

/-- Half loud, and to be paid for. -/
def whisperGiven : Parameters :=
  .ofList [("loud", .double (.ofBits .double 0x3FE0000000000000)), ("force", .int 1),
    ("consumeMana", .int 2)]

def whispered : CastResult Grimoire CastReport :=
  castWith ({ scripted := [whisper] } : Grimoire) { id := .nil, mana := 10 } .empty .scroll
    "whisper" 1 whisperGiven

/-- Nothing is left of the half, so no effects are played. Two is as good as true. The cooldown is
    not triggered, as for every scroll, whatever the documented default is. -/
theorem castWith_options_whisper :
    Registry.find? ({ scripted := [whisper] } : Grimoire) "whisper" = some (.scripted whisper) ∧
      SchemaBuilder.Builds whisper.schema ∧
      whisper.schema.Accepts whisperGiven ∧
      ∃ options : CastOptions, options.playEffects = false ∧ options.consumeMana = true ∧
        options.triggerCooldown = false ∧
        ∀ report, whispered.answer = .ok report → report.options = options := by
  have found : Registry.find? ({ scripted := [whisper] } : Grimoire) "whisper" =
      some (.scripted whisper) := rfl
  have built : SchemaBuilder.Builds whisper.schema := ⟨whisperCalls, rfl⟩
  have accepts : whisper.schema.Accepts whisperGiven :=
    (Schema.isSuccess_iff built whisperGiven).mp rfl
  obtain ⟨-, options, -, flagged, -, -, -, reported⟩ :=
    castWith_options ({ scripted := [whisper] } : Grimoire) { id := .nil, mana := 10 } .empty
      .scroll "whisper" 1 found rfl built accepts
  have half : (Value.double (.ofBits .double 0x3FE0000000000000)).toFlag? = some false := by
    decide +kernel
  have loud := flagged.named .playEffects _ List.mem_cons_self (.inr List.mem_cons_self)
  have paid := flagged.named .consumeMana ("consumeMana", .int 2)
    (List.mem_cons_of_mem _ (List.mem_cons_of_mem _ List.mem_cons_self)) (.inl rfl)
  have silent : ∀ key ∈ whisperGiven.keys, ¬ whisper.schema.NamesFlag .triggerCooldown key := by
    decide
  have idle := flagged.silent .triggerCooldown fun e member =>
    silent e.1 (List.mem_map_of_mem member)
  rw [half, Option.some.injEq] at loud
  exact ⟨found, built, accepts, options, loud.symm, (Option.some.inj paid).symm, idle, reported⟩

end Spellcraft
