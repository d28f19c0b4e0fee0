import Spellcraft.Proofs.Catalog.History
import Spellcraft.Proofs.Catalog.Mana

/-! # How far a cast from a spell book reaches

A cast changes one spell of a book and one caster, and only a small part of both: of the spell the
last outcome, of the caster the mana, the cast bar and one entry of the ledger of cooldowns. The
entry is filed under the id that the spell bears. That this is the id of the call takes a fact
about books: however a book comes about, every spell stands under its own id.

* `SpellBook.Assembled` — how books come about, and `SpellBook.Assembled.keyed`, that their spells
  stand under their ids;
* `CatalogSpell.Reached` — what a cast may change of its caster, kept to by both kinds of cast;
* `SpellBook.putBack_castWith` — what a cast may change of a book;
* `SpellBook.isolated_castText` — every call, whatever it returns.
-/

namespace Spellcraft

/-! ## The caster -/

namespace CatalogSpell

/-- What a cast of a spell may change of its caster: the mana, the cast bar, and the entry of the
    spell in the ledger. -/
def Reached (s : CatalogSpell) (caster last : Caster) : Prop :=
  ∃ mana casting? ticks?, last =
    { caster with
      mana, casting?
      cooldowns := Option.elim ticks? caster.cooldowns (caster.cooldowns.put s.definition.id) }

theorem Reached.refl (s : CatalogSpell) (caster : Caster) : s.Reached caster caster :=
  ⟨caster.mana, caster.casting?, none, rfl⟩

theorem Settled.reached {level : UInt32} {source : CastSource} {params : Parameters}
    {options : CastOptions} {s : CatalogSpell} {caster last : Caster} {mana : Int32}
    {cost? ticks? : Option Int32} {barStarted : Bool} {told : List Notification}
    (settled : Settled level source params options s caster mana cost? ticks? barStarted last told) :
    s.Reached caster last :=
  ⟨_, _, ticks?, settled.last_eq⟩

theorem reached_settle (s : CatalogSpell) (options : CastOptions) (cost mana : Int32)
    (caster : Caster) : s.Reached caster (s.settle options cost { caster with mana }) := by
  rw [settle_eq]
  cases options.triggerCooldown with
  | false => exact ⟨_, caster.casting?, none, rfl⟩
  | true => exact ⟨_, caster.casting?, some _, rfl⟩

theorem reached_attempt (level : UInt32) (source : CastSource) (s : CatalogSpell)
    (caster : Caster) : s.Reached caster (attempt level source s caster).caster := by
  cases answered : (attempt level source s caster).answer with
  | false =>
    rw [(attempt_keeps level source s caster answered).2]
    exact Reached.refl s caster
  | true =>
    obtain ⟨normal, valid, covered, done, -⟩ := attempt_of_true answered
    unfold attempt at answered ⊢
    split
    · exact Reached.refl s caster
    · rw [valid]
      dsimp only
      rw [if_neg covered, done]
      dsimp only
      rw [effect_spell, effect_caster]
      exact reached_settle s source.options (s.manaCost level) _ caster

end CatalogSpell

namespace SpellBook

open CatalogSpell

section

variable (book : SpellBook) (caster : Caster) (loader : Loader) (source : CastSource) (id : String)
  (level : UInt32)

theorem reached_castWith (params : Parameters) {s : CatalogSpell}
    (found : book.find? id = some s) :
    s.Reached caster (castWith book caster loader source id level params).caster := by
  cases answered : (castWith book caster loader source id level params).answer with
  | error stop =>
    rw [(castWith_error book caster loader source id level params answered).sameCaster]
    exact Reached.refl s caster
  | ok report =>
    cases parameterized : Castable.isParameterized s with
    | false =>
      obtain ⟨-, left⟩ :=
        castWith_attempt book caster loader source id level params found parameterized answered
      rw [left]
      exact reached_attempt level source s caster
    | true =>
      obtain ⟨rejected, accounts⟩ :=
        castWith_account book caster loader source id level params found parameterized
      cases valid : (s.schema.validate params).toExcept with
      | error errors =>
        rw [(rejected errors valid).2.2.1]
        exact Reached.refl s caster
      | ok normal =>
        obtain ⟨left, -, account⟩ := accounts normal valid
        exact (account.succeeded report answered).2.2.2.reached

end

/-! ## The book -/

theorem find?_insert (book : SpellBook) (spell : CatalogSpell) (key : String) :
    (book.insert spell).find? key =
      if key = spell.definition.id then some spell else book.find? key := by
  split
  · next same => exact same ▸ Entries.find?_put_self ..
  · next other => exact Entries.find?_put_of_ne _ _ other

theorem find?_replace (book : SpellBook) (id key : String) (spell : CatalogSpell) :
    (Registry.replace book id spell : SpellBook).find? key =
      if key = id then some spell else book.find? key := by
  split
  · next same => exact same ▸ Entries.find?_put_self ..
  · next other => exact Entries.find?_put_of_ne _ _ other

theorem ids_replace {book : SpellBook} {id : String} {old : CatalogSpell}
    (found : book.find? id = some old) (spell : CatalogSpell) :
    (Registry.replace book id spell : SpellBook).ids = book.ids := by
  refine (Entries.keys_put ..).trans (if_pos ?_)
  refine Classical.not_not.mp fun absent => ?_
  cases found.symm.trans (Entries.find?_eq_none_iff.mpr absent)

/-- How books come about: spells are added, in place of others with the same id; and a spell that
    is looked up is put back with the definition that it had. -/
inductive Assembled : SpellBook → Prop where
  | empty : Assembled .empty
  | insert {book : SpellBook} (assembled : Assembled book) (spell : CatalogSpell) :
      Assembled (book.insert spell)
  | putBack {book : SpellBook} (assembled : Assembled book) {id : String} {old spell : CatalogSpell}
      (found : book.find? id = some old) (same : spell.definition = old.definition) :
      Assembled (Registry.replace book id spell)

theorem Assembled.keyed {book : SpellBook} (assembled : Assembled book) {key : String}
    {spell : CatalogSpell} (found : book.find? key = some spell) : spell.definition.id = key := by
  induction assembled generalizing key spell with
  | empty => cases found
  | insert _ added ih =>
    rw [find?_insert] at found
    split at found
    · next here =>
      cases found
      exact here.symm
    · exact ih found
  | putBack _ before same ih =>
    rw [find?_replace] at found
    split at found
    · next here =>
      cases found
      rw [same, ih before, here]
    · exact ih found

theorem assembled_addDefinitions {server : ServerConfig} {definitions : List SpellDefinition}
    {book full : SpellBook} {loader : Loader} (assembled : Assembled book)
    (built : (addDefinitions server book loader definitions).value = .ok full) :
    Assembled full := by
  induction definitions generalizing book loader with
  | nil =>
    cases built
    exact assembled
  | cons definition rest ih =>
    unfold addDefinitions at built
    dsimp only at built
    cases made : (CatalogSpell.ofDefinition definition (server.tuning definition.id)
        loader).value with
    | error error =>
      rw [made] at built
      cases built
    | ok spell =>
      rw [made] at built
      exact ih (assembled.insert spell) built

theorem assembled_ofDefinitions {definitions : List SpellDefinition} {loader : Loader}
    {server : ServerConfig} {book : SpellBook}
    (built : (ofDefinitions definitions loader server).value = .ok book) : Assembled book :=
  assembled_addDefinitions .empty built

variable (book : SpellBook) (caster : Caster) (loader : Loader) (source : CastSource) (id : String)
  (level : UInt32)

/-- A cast leaves the book alone, or puts its spell back with another last outcome. -/
theorem putBack_castWith (params : Parameters) :
    let result := castWith book caster loader source id level params
    (book.find? id = none ∧ result.registry = book ∧ result.caster = caster) ∨
      ∃ spell left, book.find? id = some spell ∧ left.forget = spell.forget ∧
        result.registry = Registry.replace book id left := by
  intro result
  cases found : book.find? id with
  | none =>
    have refused : result = .refused book caster loader (.unknownSpell id) [.spellUnknown] := by
      simp only [result, castWith, show Registry.find? book id = none from found]
    rw [refused]
    exact .inl ⟨rfl, rfl, rfl⟩
  | some spell =>
    have casts : result =
        .ofSpell book id spell caster loader (CastM.castSpell level source params) := by
      simp only [result, castWith, show Registry.find? book id = some spell from found]
    rw [casts, CastResult.ofSpell_eq]
    exact .inr ⟨spell, _, rfl, forget_castSpell level source params _, rfl⟩

/-- How far a call on an assembled book reaches, whatever it returns. -/
structure Isolated (result : CastResult SpellBook CastReport) : Prop where
  others : ∀ key, key ≠ id → result.registry.find? key = book.find? key
  ids : result.registry.ids = book.ids
  keyed : ∀ key spell, result.registry.find? key = some spell → spell.definition.id = key
  named : ∀ spell, book.find? id = some spell →
    ∃ lastOutcome?, result.registry.find? id = some { spell with lastOutcome? }
  casterId : result.caster.id = caster.id
  modifiers : result.caster.modifiers = caster.modifiers
  ledger : result.caster.cooldowns = caster.cooldowns ∨
    ∃ ticks, result.caster.cooldowns = caster.cooldowns.put id ticks
  /-- The book is one of those on which the next call is isolated too. -/
  assembled : Assembled result.registry

variable {book} in
theorem isolated_unchanged (assembled : Assembled book)
    {result : CastResult SpellBook CastReport} (sameBook : result.registry = book)
    (sameCaster : result.caster = caster) : Isolated book caster id result where
  others _ _ := by rw [sameBook]
  ids := by rw [sameBook]
  keyed key spell found := assembled.keyed (sameBook ▸ found)
  named spell found := ⟨spell.lastOutcome?, by rw [sameBook, found]⟩
  casterId := by rw [sameCaster]
  modifiers := by rw [sameCaster]
  ledger := .inl (by rw [sameCaster])
  assembled := by rwa [sameBook]

theorem isolated_castWith (assembled : Assembled book) (params : Parameters) :
    Isolated book caster id (castWith book caster loader source id level params) := by
  rcases putBack_castWith book caster loader source id level params with
    ⟨-, sameBook, sameCaster⟩ | ⟨spell, left, found, same, replaced⟩
  · exact isolated_unchanged caster id assembled sameBook sameCaster
  · obtain ⟨mana, casting?, ticks?, reached⟩ :=
      reached_castWith book caster loader source id level params found
    have left_eq : left = { spell with lastOutcome? := left.lastOutcome? } :=
      eq_of_forget same.symm
    have back : Assembled (Registry.replace book id left) :=
      assembled.putBack found (by rw [left_eq])
    constructor
    · intro key other
      rw [replaced, find?_replace, if_neg other]
    · rw [replaced, ids_replace found]
    · intro key other there
      rw [replaced] at there
      exact back.keyed there
    · intro old here
      obtain rfl : spell = old := Option.some.inj (found.symm.trans here)
      exact ⟨left.lastOutcome?, by rw [replaced, find?_replace, if_pos rfl, ← left_eq]⟩
    · rw [reached]
    · rw [reached]
    · -- the ledger is written under the id of the spell, which is the one of the call
      rw [reached, assembled.keyed found]
      cases ticks? with
      | none => exact .inl rfl
      | some ticks => exact .inr ⟨ticks, rfl⟩
    · rw [replaced]
      exact back

variable {book} in
/-- Whatever a call returns: every other spell is as it was, so are the ids and their order, and
    every spell still stands under its own; the named spell has kept all but its last outcome; and
    of the caster nothing changed but the mana, the cast bar and the cooldown of the named
    spell. -/
theorem isolated_castText (assembled : Assembled book) (text : String) :
    Isolated book caster id (castText book caster loader source id level text) := by
  unfold castText
  cases Parameters.ofText text with
  | error e => exact isolated_unchanged caster id assembled rfl rfl
  | ok params => exact isolated_castWith book caster loader source id level assembled params

def pairCatalog : List SpellDefinition := emberDefinition :: surgeCatalog

def pairBook : SpellBook :=
  match (ofDefinitions pairCatalog .empty {}).value with
  | .ok book => book
  | .error _ => .empty

/-- A caster who has still to wait for the other spell. -/
def weary : Caster := { id := .nil, mana := 10, cooldowns := .ofList [("surge", 7)] }

def pairCast : CastResult SpellBook CastReport :=
  castText pairBook weary .empty .spellbook "ember" 1 ""

/-- An ember leaves the surge beside it alone, and the caster's wait for that. -/
theorem isolated_castText_pair :
    pairBook.ids = ["ember", "surge"] ∧ pairCast.answer.isOk = true ∧
      pairCast.caster.cooldowns = .ofList [("surge", 7), ("ember", 40)] ∧
      Isolated pairBook weary "ember" pairCast := by
  have built : (ofDefinitions pairCatalog .empty {}).value = .ok pairBook := rfl
  refine ⟨by decide +kernel, by decide +kernel, by decide +kernel, ?_⟩
  exact isolated_castText weary .empty .spellbook "ember" 1 (assembled_ofDefinitions built) ""

end SpellBook

end Spellcraft
