import Spellcraft.Proofs.Cast.Frame
import Spellcraft.Proofs.Cast.Restoration
import Spellcraft.Proofs.Cast.Simulation
import Spellcraft.Proofs.Catalog.Construction
import Spellcraft.Proofs.Catalog.Failure

/-! # Casts do not depend on earlier casts

A cast from a spell book changes nothing but the last outcome of its spell, and no cast looks
at a last outcome. So it does not matter what was cast before.

* `CatalogSpell.forget` — a spell without its last outcome;
* `CatalogSpell.simulation` — spells that differ in nothing else cannot be told apart;
* `CatalogSpell.forget_castSpell` — a cast leaves the spell as it was, in that sense;
* `SpellBook.Ready` — what building a book establishes: live configurations are the base ones,
  and the loader has its table once there is a spell;
* `SpellBook.castText_after` — any cast after any history of casts.
-/

namespace Spellcraft

namespace CatalogSpell

def forget (s : CatalogSpell) : CatalogSpell := { s with lastOutcome? := none }

theorem eq_of_forget {s t : CatalogSpell} (same : s.forget = t.forget) :
    t = { s with lastOutcome? := t.lastOutcome? } := by
  cases s
  cases t
  cases same
  rfl

theorem effect_alike (level : UInt32) (source : CastSource) (params : Parameters) :
    Hook.Alike (fun s t => s.forget = t.forget) (effect level source params)
      (effect level source params) := by
  intro s t caster same
  rw [eq_of_forget same]
  unfold effect
  dsimp only
  cases resolveEffect s.definition.effect (s.live.spellPower level) params caster with
  | error e => exact ⟨rfl, rfl, rfl, rfl⟩
  | ok r => exact ⟨rfl, rfl, rfl, rfl⟩

theorem admission_alike (level : UInt32) (source : CastSource) :
    Hook.Alike (fun s t => s.forget = t.forget) (admission level source)
      (admission level source) := by
  intro s t caster same
  rw [eq_of_forget same]
  unfold admission manaCost
  dsimp only
  split
  · exact ⟨rfl, rfl, rfl, rfl⟩
  · split
    · exact ⟨rfl, rfl, rfl, rfl⟩
    · exact ⟨rfl, rfl, rfl, rfl⟩

theorem attempt_alike (level : UInt32) (source : CastSource) :
    Hook.Alike (fun s t => s.forget = t.forget) (attempt level source)
      (attempt level source) := by
  intro s t caster same
  rw [eq_of_forget same]
  unfold attempt effect manaCost
  dsimp only
  split
  · exact ⟨rfl, rfl, rfl, rfl⟩
  · cases (s.schema.validate .empty).toExcept with
    | error errors => exact ⟨rfl, rfl, rfl, rfl⟩
    | ok params =>
      dsimp only
      split
      · exact ⟨rfl, rfl, rfl, rfl⟩
      · cases resolveEffect s.definition.effect (s.live.spellPower level) params caster with
        | error e => exact ⟨rfl, rfl, rfl, rfl⟩
        | ok r => exact ⟨rfl, rfl, rfl, rfl⟩

theorem simulation : Simulation fun s t : CatalogSpell => s.forget = t.forget where
  id same := by rw [eq_of_forget same]; rfl
  name same := by rw [eq_of_forget same]; rfl
  isParameterized same := by rw [eq_of_forget same]; rfl
  schema same := by rw [eq_of_forget same]; rfl
  config same := by rw [eq_of_forget same]; rfl
  setConfig same config := by rw [eq_of_forget same]; rfl
  defaultTicks same := by rw [eq_of_forget same]; rfl
  manaMultiplier same := by rw [eq_of_forget same]; rfl
  castTime same _ _ := by rw [eq_of_forget same]; rfl
  attempt := attempt_alike
  admission := admission_alike
  precondition _ _ _ _ same := ⟨rfl, same, rfl, rfl⟩
  effect := effect_alike
  complete _ _ _ _ _ same := ⟨rfl, same, rfl, rfl⟩

/-! ## What a cast changes of its spell -/

theorem forget_effect (level : UInt32) (source : CastSource) (params : Parameters)
    (s : CatalogSpell) (caster : Caster) :
    (effect level source params s caster).spell.forget = s.forget := by
  unfold effect
  dsimp only
  cases resolveEffect s.definition.effect (s.live.spellPower level) params caster with
  | error e => rfl
  | ok r => rfl

theorem forget_attempt (level : UInt32) (source : CastSource) (s : CatalogSpell)
    (caster : Caster) : (attempt level source s caster).spell.forget = s.forget := by
  unfold attempt
  split
  · rfl
  · split
    · rfl
    · next params _ =>
      dsimp only
      split
      · rfl
      · have same := forget_effect level source params s caster
        cases (effect level source params s caster).answer with
        | done => exact same
        | refused e => exact same
        | brokenOff reason => exact same

/-- A spell made like another one: it differs at most in what is live and in its last outcome. -/
def MadeLike (s t : CatalogSpell) : Prop := ∃ live, t.forget = { s.forget with live }

theorem MadeLike.definition_eq {s t : CatalogSpell} (like : MadeLike s t) :
    t.definition = s.definition := by
  obtain ⟨live, same⟩ := like
  have kept := congrArg CatalogSpell.definition same
  exact kept

theorem MadeLike.schema_eq {s t : CatalogSpell} (like : MadeLike s t) : t.schema = s.schema := by
  obtain ⟨live, same⟩ := like
  have kept := congrArg CatalogSpell.schema same
  exact kept

theorem madeLike_hereditary (s : CatalogSpell) : Hereditary (MadeLike s) where
  setConfig t config := by
    rintro ⟨live, same⟩
    refine ⟨config, ?_⟩
    calc CatalogSpell.forget { t with live := config }
        = { t.forget with live := config } := rfl
      _ = { s.forget with live := config } := by rw [same]
  admission level source t caster := by
    rintro ⟨live, same⟩
    refine ⟨live, ?_⟩
    rw [show (Castable.admission level source t caster).spell = t from
      (admission_keeps level source t caster).1]
    exact same
  precondition _ _ _ made := made
  effect level source params t caster := by
    rintro ⟨live, same⟩
    exact ⟨live, (forget_effect level source params t caster).trans same⟩
  complete _ _ _ _ made := made

/-- A cast leaves the spell as it was, up to its last outcome. -/
theorem forget_castSpell (level : UInt32) (source : CastSource) (params : Parameters)
    (stage : Stage CatalogSpell) :
    (CastM.finish (CastM.castSpell level source params) stage).2.spell.forget =
      stage.spell.forget := by
  rw [CastM.finish_castSpell]
  split
  · -- hooks change the live configuration and the last outcome, and the first is given back
    have restored : (CastM.finish (CastM.castParameterized level source params)
        stage).2.spell.live = stage.spell.live :=
      CastM.config_castParameterized level source params stage
    obtain ⟨live, made⟩ := (madeLike_hereditary stage.spell).castParameterized level source params
      stage ⟨stage.spell.live, rfl⟩
    have same : live = stage.spell.live :=
      (congrArg CatalogSpell.live made).symm.trans restored
    rw [made, same]
    rfl
  · rcases CastM.castFixed_cases level source stage with ⟨-, report, took⟩ | ⟨-, declined⟩
    · rw [took]
      exact forget_attempt level source stage.spell stage.caster
    · rw [declined]
      exact forget_attempt level source stage.spell stage.caster

end CatalogSpell

/-! ## Books -/

namespace SpellBook

def forget (book : SpellBook) : SpellBook := ⟨book.spells.map CatalogSpell.forget⟩

theorem find?_forget (book : SpellBook) (id : String) :
    book.forget.find? id = (book.find? id).map CatalogSpell.forget :=
  Record.find?_map CatalogSpell.forget book.spells id

theorem forget_replace (book : SpellBook) (id : String) (spell : CatalogSpell) :
    forget (Registry.replace book id spell) = Registry.replace book.forget id spell.forget :=
  congrArg SpellBook.mk (Record.map_put CatalogSpell.forget book.spells id spell)

variable (caster : Caster) (loader : Loader) (source : CastSource) (id : String) (level : UInt32)

theorem forget_castText (book : SpellBook) (text : String) :
    (castText book caster loader source id level text).registry.forget = book.forget := by
  unfold castText castWith
  cases Parameters.ofText text with
  | error e => rfl
  | ok params =>
    cases found : Registry.find? book id with
    | none => rfl
    | some spell =>
      dsimp only
      rw [CastResult.ofSpell_eq]
      dsimp only
      rw [forget_replace, CatalogSpell.forget_castSpell]
      refine replace_of_find? ?_
      rw [find?_forget, show book.find? id = some spell from found]
      rfl

structure AlikeResults (one other : CastResult SpellBook CastReport) : Prop where
  answer : one.answer = other.answer
  book : one.registry.forget = other.registry.forget
  caster : one.caster = other.caster
  loader : one.loader = other.loader
  told : one.told = other.told
  notices : one.notices = other.notices

theorem castText_alike {book other : SpellBook} (same : book.forget = other.forget)
    (text : String) :
    AlikeResults (castText book caster loader source id level text)
      (castText other caster loader source id level text) := by
  have lookups : (book.find? id).map CatalogSpell.forget =
      (other.find? id).map CatalogSpell.forget := by
    rw [← find?_forget, ← find?_forget, same]
  unfold castText castWith
  cases Parameters.ofText text with
  | error e => exact ⟨rfl, same, rfl, rfl, rfl, rfl⟩
  | ok params =>
    dsimp only
    rw [show Registry.find? book id = book.find? id from rfl,
      show Registry.find? other id = other.find? id from rfl]
    cases here : book.find? id with
    | none =>
      cases there : other.find? id with
      | none => exact ⟨rfl, same, rfl, rfl, rfl, rfl⟩
      | some spell' =>
        rw [here, there] at lookups
        cases lookups
    | some spell =>
      cases there : other.find? id with
      | none =>
        rw [here, there] at lookups
        cases lookups
      | some spell' =>
        rw [here, there] at lookups
        have spells : spell.forget = spell'.forget := Option.some.inj lookups
        dsimp only
        rw [CastResult.ofSpell_eq, CastResult.ofSpell_eq]
        -- no hook looks at the last outcome, so the two casts go the same way
        obtain ⟨answers, stages⟩ := CatalogSpell.simulation.castSpell level source params
          { spell, caster, loader } { spell := spell', caster, loader }
          ⟨spells, rfl, rfl, rfl, rfl, rfl, rfl⟩
        refine ⟨answers, ?_, stages.caster, stages.loader, stages.told, stages.notices⟩
        dsimp only
        rw [forget_replace, forget_replace, same, stages.spell]

/-! ## Building -/

/-- A book of which nothing was cast: what is live is the base, and the loader has its table once
    there is a spell. -/
def Ready (book : SpellBook) (loader : Loader) : Prop :=
  ∀ id spell, book.find? id = some spell → loader.isLoaded = true ∧ spell.live = spell.base

end SpellBook

theorem CatalogSpell.isLoaded_ofDefinition (definition : SpellDefinition) (tuning : SpellTuning)
    (loader : Loader) : (ofDefinition definition tuning loader).loader.isLoaded = true := by
  rw [Loader.isLoaded, table?_ofDefinition]
  rfl

namespace SpellBook

theorem Ready.insert {book : SpellBook} {before after : Loader} {spell : CatalogSpell}
    (ready : Ready book before) (loaded : after.isLoaded = true) (fresh : spell.live = spell.base) :
    Ready (book.insert spell) after := by
  intro id other found
  refine ⟨loaded, ?_⟩
  by_cases same : id = spell.definition.id
  · rw [same, find?, SpellBook.insert, Record.find?, Record.put, Entries.find?_put_self] at found
    cases found
    exact fresh
  · rw [find?, SpellBook.insert, Record.find?, Record.put, Entries.find?_put_of_ne _ _ same]
      at found
    exact (ready id other found).2

theorem ready_addDefinitions {server : ServerConfig} {definitions : List SpellDefinition}
    {book full : SpellBook} {loader : Loader} (ready : Ready book loader)
    (built : (addDefinitions server book loader definitions).value = .ok full) :
    Ready full (addDefinitions server book loader definitions).loader := by
  induction definitions generalizing book loader with
  | nil =>
    cases built
    exact ready
  | cons definition rest ih =>
    have loaded := CatalogSpell.isLoaded_ofDefinition definition (server.tuning definition.id)
      loader
    unfold addDefinitions at built ⊢
    dsimp only at built ⊢
    cases made : (CatalogSpell.ofDefinition definition (server.tuning definition.id)
        loader).value with
    | error e =>
      rw [made] at built
      cases built
    | ok spell =>
      rw [made] at built
      exact ih (ready.insert loaded ((CatalogSpell.ofDefinition_ok made).2.2.1)) built

theorem ready_ofDefinitions {definitions : List SpellDefinition} {loader : Loader}
    {server : ServerConfig} {book : SpellBook}
    (built : (ofDefinitions definitions loader server).value = .ok book) :
    Ready book (ofDefinitions definitions loader server).loader :=
  ready_addDefinitions (fun _ _ found => by cases found) built

/-- A book that differs from a ready one in last outcomes only is ready too. -/
theorem Ready.of_forget {book used : SpellBook} {loader : Loader} (ready : Ready book loader)
    (same : used.forget = book.forget) : Ready used loader := by
  intro id spell found
  have lookup : (book.find? id).map CatalogSpell.forget = some spell.forget := by
    rw [← find?_forget, ← same, find?_forget, found]
    rfl
  obtain ⟨fresh, here, spells⟩ := Option.map_eq_some_iff.mp lookup
  obtain ⟨loaded, live⟩ := ready id fresh here
  rw [CatalogSpell.eq_of_forget spells]
  exact ⟨loaded, live⟩

theorem Ready.loader_castText {book : SpellBook} {loader : Loader} (ready : Ready book loader)
    (caster : Caster) (source : CastSource) (id : String) (level : UInt32) (text : String) :
    (castText book caster loader source id level text).loader = loader := by
  unfold castText castWith
  cases Parameters.ofText text with
  | error e => rfl
  | ok params =>
    cases found : Registry.find? book id with
    | none => rfl
    | some spell =>
      dsimp only
      rw [CastResult.ofSpell_eq]
      exact CastM.loader_castSpell level source params _ (ready id spell found).1

end SpellBook

/-! ## Histories -/

structure CastCall where
  source : CastSource
  caster : Caster
  id : String
  level : UInt32
  text : String
  loader? : Option Loader := none

namespace CastCall

def after (book : SpellBook) (loader : Loader) (call : CastCall) : SpellBook × Loader :=
  let result := castText book call.caster (call.loader?.getD loader) call.source call.id
    call.level call.text
  (result.registry, if call.loader?.isSome then loader else result.loader)

def afterAll (book : SpellBook) (loader : Loader) (history : List CastCall) :
    SpellBook × Loader :=
  history.foldl (fun state call => call.after state.1 state.2) (book, loader)

/-- One call leaves a ready book as it was up to last outcomes, and its loader as it was. -/
theorem forget_after {book : SpellBook} {loader : Loader} (ready : SpellBook.Ready book loader)
    (call : CastCall) :
    (call.after book loader).1.forget = book.forget ∧ (call.after book loader).2 = loader := by
  refine ⟨SpellBook.forget_castText .., ?_⟩
  unfold after
  cases call.loader? with
  | some other => rfl
  | none => exact ready.loader_castText ..

theorem forget_afterAll {book : SpellBook} {loader : Loader} (ready : SpellBook.Ready book loader)
    (history : List CastCall) :
    (afterAll book loader history).1.forget = book.forget ∧
      (afterAll book loader history).2 = loader := by
  induction history generalizing book with
  | nil => exact ⟨rfl, rfl⟩
  | cons call rest ih =>
    obtain ⟨spells, sameLoader⟩ := forget_after ready call
    have later : afterAll book loader (call :: rest) =
        afterAll (call.after book loader).1 loader rest :=
      congrArg (fun state => rest.foldl (fun state call => after state.1 state.2 call) state)
        (Prod.ext rfl sameLoader)
    -- the book after the first call differs from the old one, but is as ready
    obtain ⟨restSpells, restLoader⟩ := ih (ready.of_forget spells)
    rw [later]
    exact ⟨restSpells.trans spells, restLoader⟩

end CastCall

/-- A cast from a book does not depend on what was cast from the book before: after any history,
    the same call has the same answer, tells the same events, leaves the caster in the same state,
    and notes the same. The book itself is the fresh one up to last outcomes, and the
    configuration of every spell is its base again. -/
theorem SpellBook.castText_after {definitions : List SpellDefinition} {loader : Loader}
    {server : ServerConfig} {book : SpellBook}
    (built : (SpellBook.ofDefinitions definitions loader server).value = .ok book)
    (history : List CastCall) (caster : Caster) (source : CastSource) (id : String)
    (level : UInt32) (text : String) :
    let ready := (SpellBook.ofDefinitions definitions loader server).loader
    let used := CastCall.afterAll book ready history
    AlikeResults (castText used.1 caster used.2 source id level text)
        (castText book caster ready source id level text) ∧
      used.1.forget = book.forget ∧
      ∀ id spell, used.1.find? id = some spell → spell.live = spell.base := by
  intro ready used
  have fresh : Ready book ready := ready_ofDefinitions built
  obtain ⟨spells, sameLoader⟩ : used.1.forget = book.forget ∧ used.2 = ready :=
    CastCall.forget_afterAll fresh history
  refine ⟨?_, spells, fun id spell found => (fresh.of_forget spells id spell found).2⟩
  rw [sameLoader]
  exact castText_alike caster ready source id level spells text

def surgeCatalog : List SpellDefinition :=
  [{ id := "surge", name := "Surge", defaults := { baseSpellPower := 5 }, effect := .manaSurge }]

def surgeBook : SpellBook :=
  match (SpellBook.ofDefinitions surgeCatalog .empty {}).value with
  | .ok book => book
  | .error _ => .empty

def strongSurge : CastCall where
  source := .command
  caster := { id := .nil, mana := 0 }
  id := "surge"
  level := 3
  text := "\x7b\"power\": 40\x7d"

/-- The power of one cast is not that of the next. -/
theorem castText_after_strongSurge :
    (SpellBook.ofDefinitions surgeCatalog .empty {}).value = .ok surgeBook ∧
      (let used := CastCall.afterAll surgeBook
        (SpellBook.ofDefinitions surgeCatalog .empty {}).loader [strongSurge]
       ((used.1.find? "surge").bind CatalogSpell.lastOutcome?).map EffectOutcome.power = some 40 ∧
        SpellBook.AlikeResults
          (castText used.1 { id := .nil, mana := 0 } used.2 .scroll "surge" 1 "")
          (castText surgeBook { id := .nil, mana := 0 }
            (SpellBook.ofDefinitions surgeCatalog .empty {}).loader .scroll "surge" 1 "")) := by
  have built : (SpellBook.ofDefinitions surgeCatalog .empty {}).value = .ok surgeBook := rfl
  exact ⟨built, rfl, (SpellBook.castText_after built [strongSurge] _ .scroll "surge" 1 "").1⟩

end Spellcraft
