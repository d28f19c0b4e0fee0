import Spellcraft.Catalog.Spell

/-! # Spell books

A spell book holds the spells of a catalog under their ids, in catalog order.
-/

namespace Spellcraft

structure SpellBook where
  spells : Record CatalogSpell := Record.empty

namespace SpellBook

def empty : SpellBook := {}

instance : Inhabited SpellBook := ⟨empty⟩

def ids (book : SpellBook) : List String := book.spells.keys

def find? (book : SpellBook) (id : String) : Option CatalogSpell := book.spells.find? id

def size (book : SpellBook) : Nat := book.spells.size

def insert (book : SpellBook) (spell : CatalogSpell) : SpellBook :=
  ⟨book.spells.put spell.definition.id spell⟩

/-- Adds the spells of some definitions in turn, up to the first whose schema cannot be built. -/
def addDefinitions (server : ServerConfig) (book : SpellBook) (loader : Loader) :
    List SpellDefinition → Loader.Answer (Except SchemaError SpellBook)
  | [] => ⟨.ok book, loader, []⟩
  | definition :: rest =>
    let built := CatalogSpell.ofDefinition definition (server.tuning definition.id) loader
    match built.value with
    | .error e => ⟨.error e, built.loader, built.notices⟩
    | .ok spell =>
      let more := addDefinitions server (book.insert spell) built.loader rest
      { more with notices := built.notices ++ more.notices }

def ofDefinitions (definitions : List SpellDefinition) (loader : Loader)
    (server : ServerConfig) : Loader.Answer (Except SchemaError SpellBook) :=
  addDefinitions server empty loader definitions

instance : Registry SpellBook CatalogSpell where
  find? := find?
  replace book id spell := ⟨book.spells.put id spell⟩
  ids := ids

end SpellBook

end Spellcraft
