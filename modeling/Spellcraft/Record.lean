/-! # Ordered records

Parameters, tags, override tables, cooldowns and spell books are all the same thing: named
values in the order in which the names were first used. Writing to a name that is present
replaces the value where it stands; a new name goes to the end.

* `Entries` — the bare list of pairs, with `find?` and `put`;
* `Record` — entries whose names are pairwise distinct, which every operation keeps.
-/

namespace Spellcraft

abbrev Entries (α : Type) := List (String × α)

namespace Entries

variable {α β : Type}

def keys (entries : Entries α) : List String := entries.map Prod.fst

def find? (entries : Entries α) (key : String) : Option α :=
  match entries with
  | [] => none
  | (k, v) :: rest => if k = key then some v else find? rest key

def contains (entries : Entries α) (key : String) : Bool := (find? entries key).isSome

def put (entries : Entries α) (key : String) (value : α) : Entries α :=
  match entries with
  | [] => [(key, value)]
  | (k, v) :: rest => if k = key then (k, value) :: rest else (k, v) :: put rest key value

/-- The value under a name that is used at most once. A name that is used more often has no
    reading. -/
def single? (entries : Entries α) (key : String) : Option (Option α) :=
  match entries.filter fun e => e.1 == key with
  | [] => some none
  | [e] => some (some e.2)
  | _ => none

/-- Entries written one after the other: the first use of a name decides its place, the last
    one its value. -/
def ofList (pairs : List (String × α)) : Entries α :=
  pairs.foldl (fun entries p => put entries p.1 p.2) []

@[simp] theorem keys_nil : keys ([] : Entries α) = [] := rfl

@[simp] theorem keys_cons (p : String × α) (rest : Entries α) :
    keys (p :: rest) = p.1 :: keys rest := rfl

theorem find?_eq_none_iff {entries : Entries α} {key : String} :
    find? entries key = none ↔ key ∉ keys entries := by
  induction entries with
  | nil => simp [find?]
  | cons p rest ih =>
    obtain ⟨k, v⟩ := p
    by_cases h : k = key
    · simp [find?, h]
    · simp [find?, h, ih, Ne.symm h]

theorem contains_iff {entries : Entries α} {key : String} :
    contains entries key = true ↔ key ∈ keys entries := by
  unfold contains
  rw [Option.isSome_iff_ne_none, Ne, find?_eq_none_iff, Classical.not_not]

theorem keys_put (entries : Entries α) (key : String) (value : α) :
    keys (put entries key value) =
      if key ∈ keys entries then keys entries else keys entries ++ [key] := by
  induction entries with
  | nil => simp [put, keys]
  | cons p rest ih =>
    obtain ⟨k, v⟩ := p
    by_cases h : k = key
    · simp [put, h]
    · simp only [put, h, if_false, keys_cons, ih, List.mem_cons, Ne.symm h, false_or]
      split <;> simp

theorem find?_put_self (entries : Entries α) (key : String) (value : α) :
    find? (put entries key value) key = some value := by
  induction entries with
  | nil => simp [put, find?]
  | cons p rest ih =>
    obtain ⟨k, v⟩ := p
    by_cases h : k = key <;> simp [put, find?, h, ih]

theorem find?_put_of_ne (entries : Entries α) {key other : String} (value : α)
    (h : other ≠ key) : find? (put entries key value) other = find? entries other := by
  induction entries with
  | nil => simp [put, find?, Ne.symm h]
  | cons p rest ih =>
    obtain ⟨k, v⟩ := p
    by_cases hk : k = key
    · subst hk; simp [put, find?, Ne.symm h]
    · by_cases ho : k = other
      · subst ho; simp [put, find?, hk]
      · simp [put, find?, hk, ho, ih]

theorem nodup_keys_put {entries : Entries α} (h : (keys entries).Nodup) (key : String)
    (value : α) : (keys (put entries key value)).Nodup := by
  rw [keys_put]
  split
  · exact h
  · next hk => exact List.nodup_append.2 ⟨h, by simp, by
      intro a ha b hb; simp only [List.mem_singleton] at hb
      intro hab; subst hb; subst hab; exact hk ha⟩

theorem nodup_keys_foldl (pairs : List (String × α)) (entries : Entries α)
    (h : (keys entries).Nodup) :
    (keys (pairs.foldl (fun entries p => put entries p.1 p.2) entries)).Nodup := by
  induction pairs generalizing entries with
  | nil => exact h
  | cons p rest ih => exact ih _ (nodup_keys_put h _ _)

theorem nodup_keys_ofList (pairs : List (String × α)) : (keys (ofList pairs)).Nodup :=
  nodup_keys_foldl pairs [] List.nodup_nil

theorem sublist_keys_filterMap (entries : Entries α) (g : α → Option β) :
    (keys (entries.filterMap fun p => (g p.2).map (p.1, ·))).Sublist (keys entries) := by
  induction entries with
  | nil => exact List.Sublist.slnil
  | cons p rest ih =>
    obtain ⟨k, v⟩ := p
    cases h : g v with
    | none => simpa [h] using ih.cons k
    | some w => simpa [h] using ih.cons_cons k

end Entries

/-- Named values with distinct names, in order of first use. -/
structure Record (α : Type) where
  entries : Entries α
  nodup : (Entries.keys entries).Nodup

namespace Record

variable {α β : Type}

@[ext] theorem ext {r s : Record α} (h : r.entries = s.entries) : r = s := by
  cases r; cases s; cases h; rfl

def empty : Record α := ⟨[], List.nodup_nil⟩

instance : Inhabited (Record α) := ⟨empty⟩
instance : EmptyCollection (Record α) := ⟨empty⟩

def keys (r : Record α) : List String := Entries.keys r.entries

def values (r : Record α) : List α := r.entries.map Prod.snd

def find? (r : Record α) (key : String) : Option α := Entries.find? r.entries key

def contains (r : Record α) (key : String) : Bool := Entries.contains r.entries key

def size (r : Record α) : Nat := r.entries.length

def isEmpty (r : Record α) : Bool := r.entries.isEmpty

def put (r : Record α) (key : String) (value : α) : Record α :=
  ⟨Entries.put r.entries key value, Entries.nodup_keys_put r.nodup key value⟩

def ofList (pairs : List (String × α)) : Record α :=
  ⟨Entries.ofList pairs, Entries.nodup_keys_ofList pairs⟩

def filterMap (g : α → Option β) (r : Record α) : Record β :=
  ⟨r.entries.filterMap fun p => (g p.2).map (p.1, ·),
    (Entries.sublist_keys_filterMap r.entries g).nodup r.nodup⟩

instance [DecidableEq α] : DecidableEq (Record α) := fun r s =>
  decidable_of_iff (r.entries = s.entries) ⟨ext, fun h => h ▸ rfl⟩

end Record

end Spellcraft
