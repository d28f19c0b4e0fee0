import Spellcraft.Catalog.Spell
import Spellcraft.Proofs.Cast.Frame
import Spellcraft.Proofs.Config.Layers
import Spellcraft.Proofs.Schema.Declarations

/-! # Making a catalog spell

A catalog spell is made from a definition and from the override table, which the loader has from
then on.

* `CatalogSpell.ofDefinition_ok` — what a new spell consists of;
* `CatalogSpell.eq_of_resolve?_global` — its cast flags go by their own names only;
* `CatalogSpell.table?_ofDefinition` — the loader keeps the table;
* `CatalogSpell.value_baseConfig` — the base configuration is what the loader resolves;
* `CatalogSpell.value_base` — and this field by field.
-/

namespace Spellcraft

/-- Every alias that a definition declares is one of a field that it declares. -/
theorem SpellDefinition.field_of_synonym {d : SpellDefinition} {base : SpellConfig}
    {name target : String} (declared : .synonym name target ∈ d.declarations base) :
    ∃ kind presence description, .field target kind presence description ∈ d.declarations base := by
  rcases List.mem_append.mp declared with config | own
  · obtain ⟨f, among, calls⟩ := List.mem_flatMap.mp config
    refine ⟨f.kind, .optional (base.value f), f.description, List.mem_append_left _ ?_⟩
    refine List.mem_flatMap.mpr ⟨f, among, ?_⟩
    -- the one alias of a configuration field stands behind the field itself
    cases alias? : f.alias? with
    | none => simp [alias?] at calls
    | some short =>
      simp only [alias?, List.mem_cons, reduceCtorEq, Declaration.synonym.injEq,
        List.not_mem_nil, or_false, false_or] at calls
      rw [calls.2]
      exact List.mem_cons_self
  · obtain ⟨f, among, calls⟩ := List.mem_flatMap.mp own
    refine ⟨f.kind, f.presence, f.description, List.mem_append_right _ ?_⟩
    refine List.mem_flatMap.mpr ⟨f, among, ?_⟩
    rcases List.mem_cons.mp calls with here | further
    · cases here
    · obtain ⟨short, -, same⟩ := List.mem_map.mp further
      cases same
      exact List.mem_cons_self

namespace CatalogSpell

variable {definition : SpellDefinition} {tuning : SpellTuning} {loader : Loader}
  {made : CatalogSpell}

/-- A new spell is as it was made, and has the schema that its definition declares on top of the
    base configuration. -/
theorem ofDefinition_ok (new : (ofDefinition definition tuning loader).value = .ok made) :
    made.definition = definition ∧ made.base = (baseConfig definition loader).value ∧
      made.live = made.base ∧
      (SchemaBuilder.empty.declareAll (definition.declarations made.base)).build =
        .ok made.schema := by
  unfold ofDefinition at new
  dsimp only at new
  cases built : (SchemaBuilder.empty.declareAll
      (definition.declarations (baseConfig definition loader).value)).build with
  | error error =>
    rw [built] at new
    cases new
  | ok schema =>
    rw [built] at new
    cases new
    exact ⟨rfl, rfl, rfl, built⟩

theorem eq_of_resolve?_global (new : (ofDefinition definition tuning loader).value = .ok made)
    {key name : String} (resolved : made.schema.resolve? key = some name)
    (global : Schema.isGlobal name = true) : key = name := by
  obtain ⟨-, -, -, built⟩ := ofDefinition_ok new
  unfold Schema.resolve? at resolved
  split at resolved
  · exact Option.some.inj resolved
  · have declared := SchemaBuilder.synonym_mem_of_build built (Entries.mem_of_find? resolved)
    obtain ⟨kind, presence, description, field⟩ := SpellDefinition.field_of_synonym declared
    rw [SchemaBuilder.isGlobal_of_build built field] at global
    cases global

/-- Making a spell loads the table, if nothing did before, and leaves it with the loader. -/
theorem table?_ofDefinition :
    (ofDefinition definition tuning loader).loader.table? = some loader.load.value := by
  have known : (loader.hasConfig definition.id).loader.table? = some loader.load.value :=
    loader.table?_load
  have loaded : (loader.hasConfig definition.id).loader.isLoaded = true := by
    rw [Loader.isLoaded, known]
    rfl
  unfold ofDefinition baseConfig
  dsimp only
  split
  · rw [Loader.loader_resolve loaded]
    exact known
  · exact known

/-- The base configuration is what the loader resolves without parameters, with or without a record
    of the spell. -/
theorem value_baseConfig : (baseConfig definition loader).value =
    (loader.resolve definition.id .empty definition.defaults).value := by
  -- that the table has a record is asked first, so the loader has the table when it resolves
  have again : (loader.hasConfig definition.id).loader.load.value = loader.load.value := by
    have known : (loader.hasConfig definition.id).loader.table? = some loader.load.value :=
      loader.table?_load
    rw [Loader.load_of_table? known]
  change _ = Loader.layered loader.load.value definition.id .empty definition.defaults
  unfold baseConfig
  dsimp only
  split
  · change Loader.layered (loader.hasConfig definition.id).loader.load.value definition.id .empty
      definition.defaults = _
    rw [again]
  · next absent =>
    have nothing : loader.load.value.find? definition.id = none := by
      simpa [Loader.hasConfig] using absent
    unfold Loader.layered
    rw [nothing]
    rfl

theorem value_base (new : (ofDefinition definition tuning loader).value = .ok made)
    (f : ConfigField) :
    made.base.value f =
      (loader.load.value.field? definition.id f).getD (definition.defaults.value f) := by
  rw [(ofDefinition_ok new).2.1, value_baseConfig]
  exact Loader.value_layered loader.load.value definition.id .empty definition.defaults f

end CatalogSpell

end Spellcraft
