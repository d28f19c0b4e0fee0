import Spellcraft.Catalog.Document
import Spellcraft.Proofs.Catalog.Isolation

/-! # From a catalog to a book

A catalog text holds a list of definitions, and its ids have to be distinct. The book of a catalog
is made by adding one spell after the other, each of which replaces a spell with the same id and is
made with the loader that the one before it left behind. Neither of the two matters: there is no
spell to replace, and every loader after the first has the table that the first one got.

* `SpellCatalog.repeated?_cases` — the first id that is not new, or that there is none;
* `SpellBook.value_addDefinitions` — adding definitions is making all the spells first;
* `SpellBook.Stocks` — a book that holds a catalog without loss;
* `SpellCatalog.parse_stocks` — from the text to the book.
-/

namespace Spellcraft

/-! ## Distinct ids -/

namespace SpellCatalog

/-- The definitions that a catalog text holds, before their ids are compared. -/
def decode? (text : String) : Option (List SpellDefinition) :=
  (Ron.parse? text).bind fun root => root.toList?.bind (·.mapM SpellDefinition.ofRon?)

theorem parse_of_decode? {text : String} {definitions : List SpellDefinition}
    (decoded : decode? text = some definitions) :
    parse text = match repeated? [] definitions with
      | some id => .error (.duplicateSpell id)
      | none => .ok definitions := by
  unfold decode? at decoded
  cases again : repeated? [] definitions <;> simp only [parse, decoded, again]

def FirstRepeated (definitions : List SpellDefinition) (d : SpellDefinition) : Prop :=
  ∃ before after, definitions = before ++ d :: after ∧ (before.map (·.id)).Nodup ∧
    d.id ∈ before.map (·.id)

theorem repeated?_cases (definitions : List SpellDefinition) :
    repeated? [] definitions = none ∧ (definitions.map (·.id)).Nodup ∨
      ∃ d, FirstRepeated definitions d ∧ repeated? [] definitions = some d.id := by
  -- `done` are the definitions whose ids were seen, and these were all new
  suffices scan : ∀ (rest done : List SpellDefinition) (seen : List String),
      (∀ id, id ∈ seen ↔ id ∈ done.map (·.id)) → (done.map (·.id)).Nodup →
        repeated? seen rest = none ∧ ((done ++ rest).map (·.id)).Nodup ∨
          ∃ d, FirstRepeated (done ++ rest) d ∧ repeated? seen rest = some d.id from
    scan definitions [] [] (by simp) List.nodup_nil
  intro rest
  induction rest with
  | nil =>
    intro done seen _ distinct
    exact .inl ⟨rfl, by rwa [List.append_nil]⟩
  | cons d rest ih =>
    intro done seen known distinct
    by_cases again : d.id ∈ seen
    · refine .inr ⟨d, ⟨done, rest, rfl, distinct, (known _).mp again⟩, ?_⟩
      rw [repeated?, if_pos again]
    · have new : d.id ∉ done.map (·.id) := mt (known _).mpr again
      have grown : ((done ++ [d]).map (·.id)).Nodup := by
        rw [List.map_append]
        simpa using List.Nodup.concat new distinct
      have more := ih (done ++ [d]) (d.id :: seen) (by intro id; simp [known, or_comm]) grown
      rw [List.append_assoc, List.singleton_append] at more
      rwa [repeated?, if_neg again]

theorem parse_cases {text : String} {definitions : List SpellDefinition}
    (decoded : decode? text = some definitions) :
    parse text = .ok definitions ∧ (definitions.map (·.id)).Nodup ∨
      ∃ d, FirstRepeated definitions d ∧ parse text = .error (.duplicateSpell d.id) := by
  rw [parse_of_decode? decoded]
  rcases repeated?_cases definitions with ⟨none, distinct⟩ | ⟨d, first, some⟩
  · exact .inl ⟨by rw [none], distinct⟩
  · exact .inr ⟨d, first, by rw [some]⟩

theorem FirstRepeated.not_nodup {definitions : List SpellDefinition} {d : SpellDefinition}
    (first : FirstRepeated definitions d) : ¬ (definitions.map (·.id)).Nodup := by
  obtain ⟨before, after, rfl, -, again⟩ := first
  intro distinct
  rw [List.map_append, List.map_cons, List.nodup_append] at distinct
  exact distinct.2.2 _ again _ List.mem_cons_self rfl

end SpellCatalog

/-! ## One spell -/

namespace SpellDefinition

def base (d : SpellDefinition) (loader : Loader) : SpellConfig :=
  (loader.resolve d.id .empty d.defaults).value

def schema (d : SpellDefinition) (loader : Loader) : Except SchemaError Schema :=
  (SchemaBuilder.empty.declareAll (d.declarations (d.base loader))).build

def fresh (d : SpellDefinition) (tuning : SpellTuning) (loader : Loader) (schema : Schema) :
    CatalogSpell where
  definition := d
  tuning
  schema
  base := d.base loader
  live := d.base loader

end SpellDefinition

theorem CatalogSpell.value_ofDefinition (d : SpellDefinition) (tuning : SpellTuning)
    (loader : Loader) :
    (ofDefinition d tuning loader).value = (d.schema loader).map (d.fresh tuning loader) := by
  have base : (baseConfig d loader).value = d.base loader := value_baseConfig
  unfold ofDefinition
  dsimp only
  rw [base]
  rfl

/-! ## All spells -/

section

variable {α β ε : Type} {f : α → Except ε β} {xs : List α}

theorem mapM_eq_ok_iff {ys : List β} :
    xs.mapM f = .ok ys ↔ List.Forall₂ (fun x y => f x = .ok y) xs ys := by
  induction xs generalizing ys with
  | nil => cases ys <;> simp [pure, Except.pure]
  | cons x rest ih =>
    rw [List.mapM_cons, List.forall₂_cons_left_iff]
    cases here : f x with
    | error e => simp [bind, Except.bind]
    | ok y =>
      simp only [Except.ok.injEq, ← ih]
      cases rest.mapM f <;> simp [bind, Except.bind, pure, Except.pure, eq_comm]

def FirstFails (f : α → Except ε β) (xs : List α) (e : ε) : Prop :=
  ∃ before x after, xs = before ++ x :: after ∧ (∀ other ∈ before, ∃ y, f other = .ok y) ∧
    f x = .error e

theorem firstFails_cons {x : α} {e : ε} : FirstFails f (x :: xs) e ↔
    f x = .error e ∨ (∃ y, f x = .ok y) ∧ FirstFails f xs e := by
  constructor
  · rintro ⟨before, x', after, split, earlier, failed⟩
    cases before with
    | nil =>
      obtain ⟨rfl, rfl⟩ := List.cons.inj split
      exact .inl failed
    | cons first before =>
      obtain ⟨rfl, rfl⟩ := List.cons.inj split
      exact .inr ⟨earlier _ List.mem_cons_self, before, x', after, rfl,
        fun other among => earlier other (List.mem_cons_of_mem _ among), failed⟩
  · rintro (failed | ⟨done, before, x', after, rfl, earlier, failed⟩)
    · exact ⟨[], x, xs, rfl, nofun, failed⟩
    · exact ⟨x :: before, x', after, rfl, List.forall_mem_cons.mpr ⟨done, earlier⟩, failed⟩

theorem mapM_eq_error_iff {e : ε} : xs.mapM f = .error e ↔ FirstFails f xs e := by
  induction xs with
  | nil => simp [FirstFails, pure, Except.pure]
  | cons x rest ih =>
    rw [List.mapM_cons, firstFails_cons, ← ih]
    cases here : f x with
    | error e' => simp [bind, Except.bind]
    | ok y => cases rest.mapM f <;> simp [bind, Except.bind, pure, Except.pure]

theorem exists_firstFails_iff : (∃ e, FirstFails f xs e) ↔ ∃ x ∈ xs, ∃ e, f x = .error e := by
  induction xs with
  | nil => simp [FirstFails]
  | cons x rest ih =>
    simp only [firstFails_cons, exists_or, exists_and_left, ih, List.exists_mem_cons_iff]
    cases f x <;> simp

end

namespace SpellBook

variable (server : ServerConfig) (loader : Loader)

def make (d : SpellDefinition) : Except SchemaError CatalogSpell :=
  (d.schema loader).map (d.fresh (server.tuning d.id) loader)

theorem make_congr {loader' : Loader} (same : loader'.load.value = loader.load.value) :
    make server loader' = make server loader := by
  funext d
  have base : d.base loader' = d.base loader :=
    congrArg (Loader.layered · d.id .empty d.defaults) same
  unfold make SpellDefinition.schema SpellDefinition.fresh
  rw [base]

/-- Adding definitions one after the other is making all the spells first, each with the loader that
    there was in the beginning, and then adding these. -/
theorem value_addDefinitions (book : SpellBook) (definitions : List SpellDefinition) :
    (addDefinitions server book loader definitions).value =
      (definitions.mapM (make server loader)).map (·.foldl insert book) := by
  induction definitions generalizing book loader with
  | nil => rfl
  | cons d rest ih =>
    have made : make server loader d = _ :=
      (CatalogSpell.value_ofDefinition d (server.tuning d.id) loader).symm
    have later : make server (CatalogSpell.ofDefinition d (server.tuning d.id) loader).loader =
        make server loader :=
      make_congr server loader (by rw [Loader.load_of_table? CatalogSpell.table?_ofDefinition])
    rw [List.mapM_cons, made]
    unfold addDefinitions
    dsimp only
    cases (CatalogSpell.ofDefinition d (server.tuning d.id) loader).value with
    | error e => rfl
    | ok spell =>
      dsimp only
      rw [ih, later]
      cases rest.mapM (make server loader) <;> rfl

def shelved (spells : List CatalogSpell) : Entries CatalogSpell :=
  spells.map fun spell => (spell.definition.id, spell)

theorem entries_foldl_insert (spells : List CatalogSpell) (book : SpellBook) :
    (spells.foldl insert book).spells.entries =
      (shelved spells).foldl (fun entries p => entries.put p.1 p.2) book.spells.entries := by
  induction spells generalizing book with
  | nil => rfl
  | cons spell rest ih => exact ih (book.insert spell)

/-- A book that holds the spells of some definitions, each under its own id and as it was made, in
    the order of the definitions and nothing else. -/
structure Stocks (definitions : List SpellDefinition) (book : SpellBook) : Prop where
  ids : book.ids = definitions.map (·.id)
  spells : ∀ d ∈ definitions, ∃ schema, d.schema loader = .ok schema ∧
    book.find? d.id = some (d.fresh (server.tuning d.id) loader schema)

variable {server loader} {definitions : List SpellDefinition}

theorem make_eq_ok {d : SpellDefinition} {spell : CatalogSpell} :
    make server loader d = .ok spell ↔
      ∃ schema, d.schema loader = .ok schema ∧
        d.fresh (server.tuning d.id) loader schema = spell := by
  unfold make
  cases d.schema loader <;> simp [Except.map]

theorem make_eq_error {d : SpellDefinition} {e : SchemaError} :
    make server loader d = .error e ↔ d.schema loader = .error e := by
  unfold make
  cases d.schema loader <;> simp [Except.map]

theorem firstFails_make {e : SchemaError} : FirstFails (make server loader) definitions e ↔
    FirstFails (SpellDefinition.schema · loader) definitions e := by
  induction definitions with
  | nil => simp [FirstFails]
  | cons d rest ih =>
    rw [firstFails_cons, firstFails_cons, ih, make_eq_error]
    unfold make
    cases d.schema loader <;> simp [Except.map]

theorem ofDefinitions_eq_error {e : SchemaError} :
    (ofDefinitions definitions loader server).value = .error e ↔
      FirstFails (SpellDefinition.schema · loader) definitions e := by
  unfold ofDefinitions
  rw [value_addDefinitions, ← firstFails_make, ← mapM_eq_error_iff]
  cases definitions.mapM (make server loader) <;> simp [Except.map]

theorem stocks_of_made {spells : List CatalogSpell} (distinct : (definitions.map (·.id)).Nodup)
    (made : definitions.mapM (make server loader) = .ok spells) :
    Stocks server loader definitions (spells.foldl insert .empty) := by
  have all := mapM_eq_ok_iff.mp made
  -- the spells bear the ids of their definitions, so none of them replaces another
  have own : definitions = spells.map (·.definition) := by
    rw [← List.forall₂_eq_eq_eq, List.forall₂_map_right_iff]
    refine all.imp fun d spell new => ?_
    obtain ⟨schema, -, rfl⟩ := make_eq_ok.mp new
    rfl
  have keys : Entries.keys (shelved spells) = definitions.map (·.id) := by
    rw [own]
    simp [Entries.keys, shelved]
  have entries : (spells.foldl insert .empty).spells.entries = shelved spells :=
    (entries_foldl_insert spells .empty).trans (Entries.ofList_of_nodup (keys ▸ distinct))
  constructor
  · change Entries.keys _ = _
    rw [entries, keys]
  · intro d member
    obtain ⟨spell, among, new⟩ := Schema.exists_of_forall₂ all.flip member
    obtain ⟨schema, built, rfl⟩ := make_eq_ok.mp new
    refine ⟨schema, built, ?_⟩
    change Entries.find? _ _ = _
    rw [entries]
    exact Entries.find?_of_mem (keys ▸ distinct) (List.mem_map_of_mem among)

theorem stocks_ofDefinitions {book : SpellBook} (distinct : (definitions.map (·.id)).Nodup)
    (made : (ofDefinitions definitions loader server).value = .ok book) :
    Stocks server loader definitions book := by
  unfold ofDefinitions at made
  rw [value_addDefinitions] at made
  cases all : definitions.mapM (make server loader) with
  | error e => simp [all, Except.map] at made
  | ok spells =>
    obtain rfl : spells.foldl insert .empty = book := by simpa [all, Except.map] using made
    exact stocks_of_made distinct all

end SpellBook

/-! ## From the text to the book -/

open SpellBook in
/-- A catalog text that can be decoded gives its definitions as they are, just if their ids are
    distinct, and otherwise the first id that is not new. The book of a catalog cannot be made
    just if the schema of some definition cannot, and then for the reason of the first such
    definition; otherwise it holds the catalog, every spell with the numbers that the loader
    resolves. -/
theorem SpellCatalog.parse_stocks {text : String} {definitions : List SpellDefinition}
    (decoded : decode? text = some definitions) :
    (parse text = .ok definitions ↔ (definitions.map (·.id)).Nodup) ∧
    (¬ (definitions.map (·.id)).Nodup →
      ∃ d, FirstRepeated definitions d ∧ parse text = .error (.duplicateSpell d.id)) ∧
    ∀ catalog, parse text = .ok catalog → catalog = definitions ∧
      ∀ loader server, let made := (ofDefinitions catalog loader server).value
        ((∃ e, made = .error e) ↔ ∃ d ∈ catalog, ∃ e, d.schema loader = .error e) ∧
        (∀ e, made = .error e ↔ FirstFails (SpellDefinition.schema · loader) catalog e) ∧
        ∀ book, made = .ok book → Stocks server loader catalog book := by
  rcases parse_cases decoded with ⟨accepted, distinct⟩ | ⟨d, first, refused⟩
  case inr =>
    refine ⟨?_, fun _ => ⟨d, first, refused⟩, ?_⟩
    · simp [refused, first.not_nodup]
    · intro catalog accepted
      rw [refused] at accepted
      cases accepted
  refine ⟨by simp [accepted, distinct], fun repeated => absurd distinct repeated, ?_⟩
  intro catalog accepted'
  obtain rfl : definitions = catalog := by simpa [accepted] using accepted'
  refine ⟨rfl, fun loader server => ⟨?_, fun e => ofDefinitions_eq_error, fun book made => ?_⟩⟩
  · simp only [ofDefinitions_eq_error]
    exact exists_firstFails_iff
  · exact stocks_ofDefinitions distinct made

def SpellCatalog.breezeText : String :=
  "[(id: \"gust\", name: \"Gust\", effect: Projectile), " ++
    "(id: \"calm\", name: \"Calm\", effect: ManaSurge)]"

def SpellCatalog.gustyText : String :=
  "[(id: \"gust\", name: \"Gust\", effect: Projectile), " ++
    "(id: \"calm\", name: \"Calm\", effect: ManaSurge), " ++
    "(id: \"gust\", name: \"Gale\", effect: Projectile)]"

def Loader.unhurried : Loader := ofTable (.ofList [("calm", { castTime := some 20 })])

open SpellBook in
/-- Both spells of the breeze are in its book; the second gust is refused. -/
theorem SpellCatalog.parse_stocks_breeze :
    (∃ catalog book, parse breezeText = .ok catalog ∧ catalog.map (·.id) = ["gust", "calm"] ∧
      (ofDefinitions catalog .unhurried {}).value = .ok book ∧
      (book.find? "calm").map (·.live.castTime) = some 20 ∧
      Stocks {} .unhurried catalog book) ∧
    ∃ catalog d, decode? gustyText = some catalog ∧ FirstRepeated catalog d ∧ d.id = "gust" ∧
      parse gustyText = .error (.duplicateSpell "gust") := by
  constructor
  · obtain ⟨catalog, decoded, ids, calm⟩ : ∃ catalog ∈ decode? breezeText,
        catalog.map (·.id) = ["gust", "calm"] ∧
        ((ofDefinitions catalog .unhurried {}).value.toOption.bind (·.find? "calm")).map
          (·.live.castTime) = some 20 := by
      decide +kernel
    have stocks := parse_stocks decoded
    have accepted : parse breezeText = .ok catalog := stocks.1.mpr (by rw [ids]; decide)
    cases made : (ofDefinitions catalog .unhurried {}).value with
    | error e => simp [made, Except.toOption] at calm
    | ok book =>
      rw [made] at calm
      exact ⟨catalog, book, accepted, ids, made, calm,
        ((stocks.2.2 catalog accepted).2 .unhurried {}).2.2 book made⟩
  · obtain ⟨catalog, decoded, ids, again⟩ : ∃ catalog ∈ decode? gustyText,
        catalog.map (·.id) = ["gust", "calm", "gust"] ∧ repeated? [] catalog = some "gust" := by
      decide +kernel
    obtain ⟨d, first, refused⟩ := (parse_stocks decoded).2.1 (by rw [ids]; decide)
    have same : d.id = "gust" := by
      rw [parse_of_decode? decoded, again] at refused
      exact (ContentError.duplicateSpell.inj (Except.error.inj refused)).symm
    exact ⟨catalog, d, decoded, first, same, same ▸ refused⟩

end Spellcraft
