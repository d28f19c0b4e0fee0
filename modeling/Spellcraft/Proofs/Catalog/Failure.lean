import Spellcraft.Catalog.Book
import Spellcraft.Proofs.Cast.Transaction
import Spellcraft.Proofs.Record

/-! # Failed casts of catalog spells

The hooks of a catalog spell do nothing when they say no: a failed effect returns what it was
given, and the fixed cast pays only after its effect. So a failed cast from a spell book, in
whichever way it fails, changes neither the book nor the caster.

* `CatalogSpell.effect_cases`, `CatalogSpell.attempt_keeps` — effect and fixed cast do nothing
  when they fail, so catalog spells are a `TransactionalCastable`;
* `SpellBook.CameToNothing` — what a failed cast leaves;
* `SpellBook.castText_error` — every failed cast from a book leaves that.
-/

namespace Spellcraft

namespace CatalogSpell

theorem admission_keeps (level : UInt32) (source : CastSource) (s : CatalogSpell)
    (caster : Caster) : (admission level source s caster).Keeps s caster := by
  unfold admission
  split
  · exact ⟨rfl, rfl⟩
  · split
    · exact ⟨rfl, rfl⟩
    · exact ⟨rfl, rfl⟩

theorem effect_cases (level : UInt32) (source : CastSource) (params : Parameters)
    (s : CatalogSpell) (caster : Caster) :
    (∃ error, effect level source params s caster = ⟨.refused error, s, caster, []⟩) ∨
      (effect level source params s caster).answer = .done := by
  unfold effect
  dsimp only
  cases resolveEffect s.definition.effect (s.live.spellPower level) params caster with
  | error e => exact .inl ⟨e, rfl⟩
  | ok r => exact .inr rfl

/-- The fixed cast pays only after its effect. -/
theorem attempt_keeps (level : UInt32) (source : CastSource) (s : CatalogSpell) (caster : Caster)
    (declined : (attempt level source s caster).answer = false) :
    (attempt level source s caster).Keeps s caster := by
  unfold attempt at declined ⊢
  split
  · exact ⟨rfl, rfl⟩
  · next enabled =>
    rw [if_neg enabled] at declined
    split
    · exact ⟨rfl, rfl⟩
    · next params valid =>
      rw [valid] at declined
      dsimp only at declined ⊢
      split
      · exact ⟨rfl, rfl⟩
      · next affordable =>
        rw [if_neg affordable] at declined
        rcases effect_cases level source params s caster with ⟨error, refused⟩ | done
        · rw [refused]
          exact ⟨rfl, rfl⟩
        · rw [done] at declined
          cases declined

instance : TransactionalCastable CatalogSpell where
  setConfig_restores _ _ := rfl
  id_setConfig _ _ := rfl
  admission_keeps := admission_keeps
  precondition_keeps _ _ _ := ⟨rfl, rfl⟩
  effect_keeps level source params s caster undone := by
    rcases effect_cases level source params s caster with ⟨error, refused⟩ | done
    · rw [show Castable.effect level source params s caster = _ from refused]
      exact ⟨rfl, rfl⟩
    · exact absurd done undone
  effect_orderly level source params s caster reason brokenOff := by
    change (effect level source params s caster).answer = _ at brokenOff
    rcases effect_cases level source params s caster with ⟨error, refused⟩ | done
    · rw [refused] at brokenOff
      cases brokenOff
    · rw [done] at brokenOff
      cases brokenOff
  attempt_keeps := attempt_keeps

end CatalogSpell

namespace SpellBook

theorem replace_of_find? {book : SpellBook} {id : String} {spell : CatalogSpell}
    (found : book.find? id = some spell) : Registry.replace book id spell = book :=
  congrArg SpellBook.mk (Record.put_of_find? found)

/-- What a cast from a book leaves that did not succeed: the caster and every spell of the book as
    they were. Nothing was told of it, except that a bar which the cast had started, for a caster
    who had none, was interrupted. -/
structure CameToNothing (book : SpellBook) (caster : Caster) (level : UInt32)
    (result : CastResult SpellBook CastReport) : Prop where
  sameCaster : result.caster = caster
  sameBook : result.registry = book
  told : result.told = [] ∨
    (caster.casting? = none ∧ ∃ spell duration, result.told =
      [⟨.tracking, .started caster.id spell level duration⟩,
        ⟨.tracking, .finished caster.id spell true⟩])

variable (book : SpellBook) (caster : Caster) (loader : Loader) (source : CastSource)
  (id : String) (level : UInt32)

theorem castWith_error (params : Parameters) {stop : Stop}
    (failed : (castWith book caster loader source id level params).answer = .error stop) :
    CameToNothing book caster level (castWith book caster loader source id level params) := by
  unfold castWith at failed ⊢
  cases found : Registry.find? book id with
  | none => exact ⟨rfl, rfl, .inl rfl⟩
  | some spell =>
    simp only [found, CastResult.ofSpell_eq] at failed ⊢
    generalize ended : CastM.finish (CastM.castSpell level source params)
      { spell, caster, loader } = ending at failed ⊢
    obtain ⟨answer, last⟩ := ending
    cases failed
    have undone := CastM.castSpell_error level source params _ rfl ended
    refine ⟨undone.caster, ?_, undone.told⟩
    dsimp only
    rw [undone.spell]
    exact replace_of_find? found

/-- A failed cast comes to nothing, whatever it failed for: text that cannot be decoded, a spell
    that is not there, invalid parameters, a check, the effect, or a declined fixed cast. -/
theorem castText_error (text : String) {stop : Stop}
    (failed : (castText book caster loader source id level text).answer = .error stop) :
    CameToNothing book caster level (castText book caster loader source id level text) := by
  unfold castText at failed ⊢
  cases decoded : Parameters.ofText text with
  | error e => exact ⟨rfl, rfl, .inl rfl⟩
  | ok params =>
    rw [decoded] at failed
    exact castWith_error book caster loader source id level params failed

def stray : CatalogSpell where
  definition := { id := "stray", name := "Stray", effect := .projectile }
  tuning := {}
  schema := .empty
  base := { castTime := 20 }
  live := { castTime := 20 }

def strayCast : CastResult SpellBook CastReport :=
  castText (SpellBook.mk (.ofList [("stray", stray)])) { id := .nil, mana := 10 } .empty .scroll
    "stray" 1 "\x7b\"showCastBar\": true\x7d"

/-- A stray bolt shows its bar, fails, and takes the bar back. -/
theorem castText_error_stray :
    strayCast.answer = .error (.failed (.execution "stray" (.missingParameter "target"))) ∧
      strayCast.told.length = 2 ∧
      CameToNothing (SpellBook.mk (.ofList [("stray", stray)])) { id := .nil, mana := 10 } 1
        strayCast := by
  have failed : strayCast.answer =
      .error (.failed (.execution "stray" (.missingParameter "target"))) := rfl
  exact ⟨failed, rfl, castText_error _ _ _ _ _ _ _ failed⟩

end SpellBook

end Spellcraft
