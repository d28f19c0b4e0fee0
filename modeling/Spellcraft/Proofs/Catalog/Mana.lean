import Spellcraft.Proofs.Catalog.FixedCast

/-! # The mana of a caster

Mana is written in three places: by the effect of a surge, by the charge of a cast with
parameters, and by the payment of the fixed cast. The first two stop at the ends of the range. The
third is a bare difference, which fits only because the caster had the cost before the effect.

* `manaAfter` — what becomes of mana, in numbers without bounds;
* `CatalogSpell.ManaExact` — each of the ways to cast a spell comes to just that;
* `SpellBook.mana_safe` — no row of calls takes the mana below zero, and no call goes beyond the
  range.
-/

namespace Spellcraft

/-- What becomes of mana when some is restored, as far as it can be held, and then a cost is paid,
    as far as there is mana. A cost that is not above zero takes nothing. -/
def manaAfter (mana gain cost : Int) : Int :=
  let restored := min (mana + gain) 2147483647
  if 0 < cost then max (restored - cost) 0 else restored

theorem manaAfter_nonneg {mana gain : Int} (natural : 0 ≤ mana) (gains : 0 ≤ gain) (cost : Int) :
    0 ≤ manaAfter mana gain cost := by
  unfold manaAfter
  dsimp only
  by_cases positive : 0 < cost
  · rw [if_pos positive]
    exact Int.le_max_right ..
  · rw [if_neg positive]
    omega

namespace CatalogSpell

def restores (s : CatalogSpell) (level : UInt32) : Int :=
  gained (s.live.spellPower level) s.definition.effect

theorem toInt_charge {mana gain : Int} {restored : Int32}
    (restored_eq : restored.toInt = min (mana + gain) 2147483647) (takes : Bool) (cost : Int32) :
    (if takes ∧ 0 < cost then larger (satSub restored cost) 0 else restored).toInt =
      manaAfter mana gain (if takes then cost.toInt else 0) := by
  unfold manaAfter
  cases takes with
  | false => simp [restored_eq]
  | true =>
    by_cases positive : 0 < cost
    · have above : 0 < cost.toInt := Int32.lt_iff_toInt_lt.mp positive
      have low := restored.le_toInt
      have high := restored.toInt_lt
      have zero : (0 : Int32).toInt = 0 := rfl
      simp only [positive, above, and_self, if_true, toInt_larger, toInt_satSub]
      omega
    · have below : ¬ 0 < cost.toInt := fun above => positive (Int32.lt_iff_toInt_lt.mpr above)
      simp [positive, below, restored_eq]

theorem toInt_cost (takes : Bool) (cost : Int32) :
    (if takes then some cost else none).elim 0 Int32.toInt = if takes then cost.toInt else 0 := by
  cases takes <;> rfl

section

variable {level : UInt32} {source : CastSource} {s : CatalogSpell} {caster : Caster}

theorem Settled.toInt_mana {params : Parameters} {options : CastOptions} {last : Caster}
    {restored : Int32} {cost? ticks? : Option Int32} {barStarted : Bool} {told : List Notification}
    (settled : Settled level source params options s caster restored cost? ticks? barStarted last
      told) {mana gain : Int} (restored_eq : restored.toInt = min (mana + gain) 2147483647) :
    last.mana.toInt = manaAfter mana gain (cost?.elim 0 Int32.toInt) := by
  rw [settled.mana_eq, toInt_charge restored_eq, settled.cost?_eq, toInt_cost]

/-- Where the fixed cast takes place, its effect was done, and the caster had the cost before. -/
theorem attempt_of_true (took : (attempt level source s caster).answer = true) :
    ∃ normal, (s.schema.validate .empty).toExcept = .ok normal ∧
      ¬ (source.options.consumeMana ∧ caster.mana < s.manaCost level) ∧
      (effect level source normal s caster).answer = .done ∧
      (attempt level source s caster).caster.mana =
        let mana := (effect level source normal s caster).caster.mana
        if source.options.consumeMana ∧ 0 < s.manaCost level then
          larger (mana - s.manaCost level) 0
        else mana := by
  unfold attempt at took ⊢
  cases enabled : s.tuning.enabled with
  | false => simp [enabled] at took
  | true =>
    cases valid : (s.schema.validate .empty).toExcept with
    | error errors => simp [enabled, valid] at took
    | ok normal =>
      rw [enabled, valid] at took
      refine ⟨normal, rfl, ?_⟩
      dsimp only at took ⊢
      by_cases short : source.options.consumeMana ∧ caster.mana < s.manaCost level
      · simp [short] at took
      · rw [if_neg (by simp), if_neg short] at took ⊢
        rcases effect_cases level source normal s caster with ⟨error, refused⟩ | done
        · simp [refused] at took
        · refine ⟨short, done, ?_⟩
          rw [done]
          dsimp only
          rw [settle_eq]

/-- The difference of the fixed cast fits: the caster had the cost before the effect, and no effect
    takes mana. -/
theorem attempt_fits (normal : Parameters)
    (covered : ¬ (source.options.consumeMana ∧ caster.mana < s.manaCost level))
    (takes : source.options.consumeMana = true) (positive : 0 < s.manaCost level) :
    0 ≤ (effect level source normal s caster).caster.mana.toInt - (s.manaCost level).toInt ∧
      (effect level source normal s caster).caster.mana.toInt - (s.manaCost level).toInt
        ≤ 2147483647 := by
  obtain ⟨-, cost⟩ := cost_le_effect normal covered takes
  have zero : (0 : Int32).toInt = 0 := rfl
  have above := Int32.lt_iff_toInt_lt.mp positive
  have high := (effect level source normal s caster).caster.mana.toInt_lt
  omega

theorem mana_attempt (took : (attempt level source s caster).answer = true) :
    (attempt level source s caster).caster.mana.toInt =
      manaAfter caster.mana.toInt (s.restores level)
        (if source.options.consumeMana then (s.manaCost level).toInt else 0) := by
  obtain ⟨normal, -, covered, done, left⟩ := attempt_of_true took
  have charged := toInt_charge (mana_effect level source normal s caster done)
    source.options.consumeMana (s.manaCost level)
  rw [left, restores, ← charged]
  dsimp only
  by_cases pays : source.options.consumeMana ∧ 0 < s.manaCost level
  · obtain ⟨-, cost⟩ := cost_le_effect normal covered pays.1
    rw [if_pos pays, if_pos pays, satSub_eq_sub pays.2 cost]
  · rw [if_neg pays, if_neg pays]

variable {params normal : Parameters} (loader : Loader)
  (valid : (s.schema.validate params).toExcept = .ok normal)

include valid

theorem mana_castParameterized {report : CastReport}
    (answered : (CastM.finish (CastM.castParameterized level source params)
      { spell := s, caster, loader }).1 = .ok report) :
    (CastM.finish (CastM.castParameterized level source params)
        { spell := s, caster, loader }).2.caster.mana.toInt =
      manaAfter caster.mana.toInt ((s.installed params loader normal).restores level)
        (report.manaCost?.elim 0 Int32.toInt) := by
  have account := account_castParameterized level source params s caster loader valid
  have ⟨_, done⟩ := account.ok_iff.mp ⟨report, answered⟩
  obtain ⟨-, -, -, settled⟩ := account.succeeded report answered
  exact settled.toInt_mana (mana_effect level source normal _ caster done)

theorem castDirect_cases :
    let ending := CastM.finish (CastM.castDirect level source params) { spell := s, caster, loader }
    let reply := effect level source normal (s.installed params loader normal) caster
    (reply.answer = .done ∧ ending.1 = .ok () ∧ ending.2.caster = reply.caster) ∨
      (∃ stop, ending.1 = .error stop) ∧ ending.2.caster = caster := by
  intro ending reply
  have only := effectOnly_castDirect level source caster loader valid
  rcases effect_cases level source normal (s.installed params loader normal) caster with
    ⟨error, refused⟩ | done
  · rw [refused] at only
    exact .inr ⟨⟨_, only.answer_eq⟩, only.caster_eq⟩
  · have answered := only.answer_eq
    rw [done] at answered
    exact .inl ⟨done, answered, only.caster_eq⟩

end

end CatalogSpell

namespace SpellBook

open CatalogSpell

/-! ## One call -/

section

variable (book : SpellBook) (caster : Caster) (loader : Loader) (source : CastSource) (id : String)
  (level : UInt32) (params : Parameters)

/-- Runs the effect of a spell of a book directly, whether or not it takes parameters. -/
def castDirect : CastResult SpellBook Unit :=
  match book.find? id with
  | none => .refused book caster loader (.unknownSpell id) []
  | some s => .ofSpell book id s caster loader (CastM.castDirect level source params)

/-- What the calls on a spell of a book make of the mana: neither more nor less than what the spell
    restores and costs, within the range. -/
structure ManaExact (s : CatalogSpell) : Prop where
  cast : ∀ normal report, Castable.isParameterized s = true →
    (s.schema.validate params).toExcept = .ok normal →
    (castWith book caster loader source id level params).answer = .ok report →
    (castWith book caster loader source id level params).caster.mana.toInt =
      manaAfter caster.mana.toInt ((s.installed params loader normal).restores level)
        (report.manaCost?.elim 0 Int32.toInt)
  fixed : ∀ report, Castable.isParameterized s = false →
    (castWith book caster loader source id level params).answer = .ok report →
    (castWith book caster loader source id level params).caster.mana.toInt =
      manaAfter caster.mana.toInt (s.restores level)
        (if source.options.consumeMana then (s.manaCost level).toInt else 0)
  direct : ∀ normal, (s.schema.validate params).toExcept = .ok normal →
    (castDirect book caster loader source id level params).answer = .ok () →
    (castDirect book caster loader source id level params).caster.mana.toInt =
      manaAfter caster.mana.toInt ((s.installed params loader normal).restores level) 0
  failed : ∀ stop,
    ((castWith book caster loader source id level params).answer = .error stop →
      (castWith book caster loader source id level params).caster.mana = caster.mana) ∧
    ((castDirect book caster loader source id level params).answer = .error stop →
      (castDirect book caster loader source id level params).caster.mana = caster.mana)
  /-- The difference of the fixed cast, where it is taken. -/
  fits : (attempt level source s caster).answer = true → source.options.consumeMana = true →
    0 < s.manaCost level → ∃ normal, (s.schema.validate .empty).toExcept = .ok normal ∧
      let restored := (effect level source normal s caster).caster.mana.toInt
      0 ≤ restored - (s.manaCost level).toInt ∧ restored - (s.manaCost level).toInt ≤ 2147483647

theorem castDirectText_cases (text : String) :
    (∃ params, Parameters.ofText text = .ok params ∧
      castDirectText book caster loader source id level text =
        castDirect book caster loader source id level params) ∨
    ∃ error, castDirectText book caster loader source id level text =
      .refused book caster loader error [] := by
  unfold castDirectText castDirect
  cases found : book.find? id with
  | none => exact .inr ⟨_, by rw [show Registry.find? book id = none from found]⟩
  | some s =>
    rw [show Registry.find? book id = some s from found]
    dsimp only
    by_cases parameterized : Castable.isParameterized s = true
    · rw [if_pos parameterized]
      cases Parameters.ofText text with
      | error e => exact .inr ⟨_, rfl⟩
      | ok params => exact .inl ⟨params, rfl, rfl⟩
    · rw [if_neg parameterized]
      exact .inr ⟨_, rfl⟩

theorem castDirect_of_found {s : CatalogSpell} (found : book.find? id = some s) :
    let ending := CastM.finish (CastM.castDirect level source params) { spell := s, caster, loader }
    (castDirect book caster loader source id level params).answer = ending.1 ∧
      (castDirect book caster loader source id level params).caster = ending.2.caster := by
  unfold castDirect
  rw [found]
  dsimp only
  rw [CastResult.ofSpell_eq]
  exact ⟨rfl, rfl⟩

theorem castDirect_error {stop : Stop}
    (failed : (castDirect book caster loader source id level params).answer = .error stop) :
    (castDirect book caster loader source id level params).caster = caster := by
  cases found : book.find? id with
  | none => simp [castDirect, found, CastResult.refused]
  | some s =>
    obtain ⟨answer_eq, caster_eq⟩ :=
      castDirect_of_found book caster loader source id level params found
    rw [caster_eq]
    rw [answer_eq] at failed
    cases valid : (s.schema.validate params).toExcept with
    | error errors =>
      rw [CastM.finish_castDirect_of_error level source params _ valid]
      rfl
    | ok normal =>
      rcases castDirect_cases loader valid with ⟨_, ok, _⟩ | ⟨_, same⟩
      · rw [ok] at failed
        cases failed
      · exact same

theorem castWith_attempt {s : CatalogSpell} (found : book.find? id = some s)
    (fixed : Castable.isParameterized s = false) {report : CastReport}
    (answered : (castWith book caster loader source id level params).answer = .ok report) :
    (attempt level source s caster).answer = true ∧
      (castWith book caster loader source id level params).caster =
        (attempt level source s caster).caster := by
  rw [castWith_of_fixed book caster loader source id level params found fixed] at answered ⊢
  rcases CastM.castFixed_cases level source { spell := s, caster, loader } with
    ⟨took, report', ended⟩ | ⟨_, ended⟩
  · rw [ended]
    exact ⟨took, rfl⟩
  · rw [ended] at answered
    cases answered

theorem manaExact {s : CatalogSpell} (found : book.find? id = some s) :
    ManaExact book caster loader source id level params s where
  cast normal report parameterized valid answered := by
    rw [castWith_of_parameterized book caster loader source id level params found parameterized]
      at answered ⊢
    exact mana_castParameterized loader valid answered
  fixed report plain answered := by
    obtain ⟨took, left⟩ :=
      castWith_attempt book caster loader source id level params found plain answered
    rw [left]
    exact mana_attempt took
  direct normal valid answered := by
    obtain ⟨answer_eq, caster_eq⟩ :=
      castDirect_of_found book caster loader source id level params found
    rw [answer_eq] at answered
    rw [caster_eq]
    rcases castDirect_cases loader valid with ⟨done, _, left⟩ | ⟨⟨stop, failed⟩, _⟩
    · rw [left]
      exact mana_effect level source normal _ caster done
    · rw [failed] at answered
      cases answered
  failed stop := by
    constructor
    · intro failed
      have nothing := castWith_error book caster loader source id level params failed
      rw [nothing.sameCaster]
    · intro failed
      rw [castDirect_error book caster loader source id level params failed]
  fits took takes positive := by
    obtain ⟨normal, valid, covered, -⟩ := attempt_of_true took
    exact ⟨normal, valid, attempt_fits normal covered takes positive⟩

theorem mana_castWith_nonneg (natural : 0 ≤ caster.mana.toInt) :
    0 ≤ (castWith book caster loader source id level params).caster.mana.toInt := by
  cases answered : (castWith book caster loader source id level params).answer with
  | error stop =>
    rw [(castWith_error book caster loader source id level params answered).sameCaster]
    exact natural
  | ok report =>
    cases found : book.find? id with
    | none => simp [castWith, show Registry.find? book id = none from found,
        CastResult.refused] at answered
    | some s =>
      have exactly := manaExact book caster loader source id level params found
      cases parameterized : Castable.isParameterized s with
      | false =>
        rw [exactly.fixed report parameterized answered]
        exact manaAfter_nonneg natural (gained_nonneg ..) _
      | true =>
        cases valid : (s.schema.validate params).toExcept with
        | error errors =>
          rw [castWith_of_parameterized book caster loader source id level params found
            parameterized, CastM.finish_castParameterized_of_error level source params _ valid]
            at answered
          cases answered
        | ok normal =>
          rw [exactly.cast normal report parameterized valid answered]
          exact manaAfter_nonneg natural (gained_nonneg ..) _

theorem mana_castText_nonneg (natural : 0 ≤ caster.mana.toInt) (text : String) :
    0 ≤ (castText book caster loader source id level text).caster.mana.toInt := by
  unfold castText
  cases Parameters.ofText text with
  | error e => exact natural
  | ok params => exact mana_castWith_nonneg book caster loader source id level params natural

theorem mana_castDirect_nonneg (natural : 0 ≤ caster.mana.toInt) :
    0 ≤ (castDirect book caster loader source id level params).caster.mana.toInt := by
  cases answered : (castDirect book caster loader source id level params).answer with
  | error stop =>
    rw [castDirect_error book caster loader source id level params answered]
    exact natural
  | ok done =>
    cases found : book.find? id with
    | none => simp [castDirect, found, CastResult.refused] at answered
    | some s =>
      cases valid : (s.schema.validate params).toExcept with
      | error errors =>
        obtain ⟨answer_eq, -⟩ := castDirect_of_found book caster loader source id level params found
        rw [answer_eq, CastM.finish_castDirect_of_error level source params _ valid] at answered
        cases answered
      | ok normal =>
        have exactly := manaExact book caster loader source id level params found
        rw [exactly.direct normal valid answered]
        exact manaAfter_nonneg natural (gained_nonneg ..) _

theorem mana_castDirectText_nonneg (natural : 0 ≤ caster.mana.toInt) (text : String) :
    0 ≤ (castDirectText book caster loader source id level text).caster.mana.toInt := by
  rcases castDirectText_cases book caster loader source id level text with
    ⟨params, -, same⟩ | ⟨error, refused⟩
  · rw [same]
    exact mana_castDirect_nonneg book caster loader source id level params natural
  · rw [refused]
    exact natural

end

/-! ## Rows of calls -/

inductive Call where
  | text (text : String)
  | decoded (params : Parameters)
  | direct (params : Parameters)
  | directText (text : String)

structure Invocation where
  loader : Loader
  source : CastSource
  id : String
  level : UInt32
  call : Call

def after (book : SpellBook) (caster : Caster) (invocation : Invocation) : SpellBook × Caster :=
  let ⟨loader, source, id, level, call⟩ := invocation
  match call with
  | .text text =>
    let result := castText book caster loader source id level text
    (result.registry, result.caster)
  | .decoded params =>
    let result := castWith book caster loader source id level params
    (result.registry, result.caster)
  | .direct params =>
    let result := castDirect book caster loader source id level params
    (result.registry, result.caster)
  | .directText text =>
    let result := castDirectText book caster loader source id level text
    (result.registry, result.caster)

def afterAll (book : SpellBook) (caster : Caster) (invocations : List Invocation) :
    SpellBook × Caster :=
  invocations.foldl (fun state invocation => after state.1 state.2 invocation) (book, caster)

theorem mana_after_nonneg (book : SpellBook) {caster : Caster} (natural : 0 ≤ caster.mana.toInt)
    (invocation : Invocation) : 0 ≤ (after book caster invocation).2.mana.toInt := by
  obtain ⟨loader, source, id, level, call⟩ := invocation
  cases call with
  | text text => exact mana_castText_nonneg book caster loader source id level natural text
  | decoded params => exact mana_castWith_nonneg book caster loader source id level params natural
  | direct params => exact mana_castDirect_nonneg book caster loader source id level params natural
  | directText text =>
    exact mana_castDirectText_nonneg book caster loader source id level natural text

theorem mana_afterAll_nonneg (book : SpellBook) {caster : Caster}
    (natural : 0 ≤ caster.mana.toInt) (invocations : List Invocation) :
    0 ≤ (afterAll book caster invocations).2.mana.toInt := by
  induction invocations generalizing book caster with
  | nil => exact natural
  | cons invocation rest ih =>
    exact ih (after book caster invocation).1 (mana_after_nonneg book natural invocation)

/-- Mana that is not below zero stays so in any row of calls, whatever they cast, and whether they
    succeed or fail. From any mana at all, no call computes beyond the range: what it leaves is
    what the spell restores and costs, and the difference of the fixed cast fits where it is
    taken. -/
theorem mana_safe (book : SpellBook) (caster : Caster) :
    (0 ≤ caster.mana → ∀ invocations, 0 ≤ (afterAll book caster invocations).2.mana) ∧
      ∀ loader source id level params s, book.find? id = some s →
        ManaExact book caster loader source id level params s := by
  constructor
  · intro natural invocations
    apply Int32.le_iff_toInt_le.mpr
    exact mana_afterAll_nonneg book (Int32.le_iff_toInt_le.mp natural) invocations
  · intro loader source id level params s found
    exact manaExact book caster loader source id level params found

/-- An ember for somebody who can hold no more mana, and one for somebody who has none. -/
def emberRow : List Invocation :=
  [⟨.empty, .spellbook, "ember", 1, .text ""⟩, ⟨.empty, .scroll, "ember", 1, .direct .empty⟩]

theorem mana_safe_ember :
    0 ≤ (afterAll emberBook { id := .nil, mana := 0 } emberRow).2.mana ∧
      (attempt 1 .spellbook ember { id := .nil, mana := 2147483647 }).answer = true ∧
      (attempt 1 .spellbook ember { id := .nil, mana := 2147483647 }).caster.mana = 2147483644 ∧
      ManaExact emberBook { id := .nil, mana := 2147483647 } .empty .spellbook "ember" 1 .empty
        ember := by
  obtain ⟨safe, -⟩ := mana_safe emberBook { id := .nil, mana := 0 }
  obtain ⟨-, exacts⟩ := mana_safe emberBook { id := .nil, mana := 2147483647 }
  refine ⟨safe (by decide) emberRow, ?_, ?_, exacts .empty .spellbook "ember" 1 .empty ember rfl⟩
  · decide +kernel
  · decide +kernel

end SpellBook

end Spellcraft
