import Mathlib.Data.List.Induction
import Spellcraft.Record

/-! # Writing to records

* `put_of_find?` — writing back a value that is there does nothing;
* `put_of_not_mem` — writing to a new name appends an entry, so that pairs with distinct names are
  a record as they stand (`ofList_of_nodup`);
* `find?_of_mem` — under distinct names a lookup finds every entry;
* `find?_congr` — and it does not depend on their order;
* `find?_ofList` — a lookup in what was written, if all that was written to one name agrees;
* `keys_ofList`, `find?_ofList_eq_last?` — of what was written, each name stays where it was first
  used, with the value that it was last given;
* `single?_isSome`, `mem_of_single?` — a name has a reading if it is used at most once;
* `Record.map` — a function on the values commutes with lookups and writes.
-/

namespace Spellcraft

variable {α β : Type}

namespace Entries

theorem put_of_find? {entries : Entries α} {key : String} {value : α}
    (found : find? entries key = some value) : put entries key value = entries := by
  induction entries with
  | nil => cases found
  | cons entry rest ih =>
    obtain ⟨k, v⟩ := entry
    unfold find? at found
    unfold put
    by_cases same : k = key
    · rw [if_pos same, Option.some.injEq] at found
      rw [if_pos same, found]
    · rw [if_neg same] at found
      rw [if_neg same, ih found]

theorem put_of_not_mem {entries : Entries α} {key : String} (value : α)
    (new : key ∉ keys entries) : put entries key value = entries ++ [(key, value)] := by
  induction entries with
  | nil => rfl
  | cons entry rest ih =>
    obtain ⟨k, v⟩ := entry
    simp only [keys_cons, List.mem_cons, not_or] at new
    unfold put
    rw [if_neg (Ne.symm new.1), ih new.2]
    rfl

theorem ofList_of_nodup {entries : Entries α} (distinct : (keys entries).Nodup) :
    ofList entries = entries := by
  suffices general : ∀ (done rest : Entries α), (keys (done ++ rest)).Nodup →
      rest.foldl (fun entries p => put entries p.1 p.2) done = done ++ rest from
    general [] entries distinct
  intro done rest distinct
  induction rest generalizing done with
  | nil => rw [List.foldl_nil, List.append_nil]
  | cons p rest ih =>
    obtain ⟨key, value⟩ := p
    have new : key ∉ keys done := by
      rw [keys, List.map_append, List.nodup_append] at distinct
      intro member
      exact distinct.2.2 key member key List.mem_cons_self rfl
    have split : done ++ (key, value) :: rest = done ++ [(key, value)] ++ rest := by
      rw [List.append_assoc]
      rfl
    rw [split] at distinct ⊢
    rw [List.foldl_cons, put_of_not_mem value new]
    exact ih _ distinct

theorem mem_put {entries : Entries α} {key : String} {value : α} {e : String × α}
    (member : e ∈ put entries key value) : e ∈ entries ∨ e = (key, value) := by
  induction entries with
  | nil => exact .inr (List.mem_singleton.mp member)
  | cons first rest ih =>
    obtain ⟨k, v⟩ := first
    unfold put at member
    split at member
    · next same =>
      rcases List.mem_cons.mp member with here | later
      · exact .inr (here.trans (by rw [same]))
      · exact .inl (List.mem_cons_of_mem _ later)
    · rcases List.mem_cons.mp member with here | later
      · exact .inl (here ▸ List.mem_cons_self)
      · exact (ih later).imp_left (List.mem_cons_of_mem _)

theorem mem_of_mem_foldl {pairs : List (String × α)} {done : Entries α} {e : String × α}
    (member : e ∈ pairs.foldl (fun entries p => put entries p.1 p.2) done) :
    e ∈ done ∨ e ∈ pairs := by
  induction pairs generalizing done with
  | nil => exact .inl member
  | cons p rest ih =>
    rcases ih member with early | late
    · rcases mem_put early with there | here
      · exact .inl there
      · exact .inr (List.mem_cons.mpr (.inl here))
    · exact .inr (List.mem_cons_of_mem _ late)

theorem mem_of_mem_ofList {pairs : List (String × α)} {e : String × α}
    (member : e ∈ ofList pairs) : e ∈ pairs :=
  (mem_of_mem_foldl member).resolve_left List.not_mem_nil

theorem contains_put {entries : Entries α} {key other : String} {value : α} :
    contains (put entries key value) other = true ↔
      other = key ∨ contains entries other = true := by
  rw [contains_iff, contains_iff, keys_put]
  split
  · next known =>
    constructor
    · exact .inr
    · rintro (same | member)
      · exact same ▸ known
      · exact member
  · rw [List.mem_append, List.mem_singleton]
    exact Or.comm

/-! ## Lookups -/

theorem mem_of_find? {entries : Entries α} {key : String} {value : α}
    (found : find? entries key = some value) : (key, value) ∈ entries := by
  induction entries with
  | nil => cases found
  | cons entry rest ih =>
    obtain ⟨k, v⟩ := entry
    by_cases same : k = key
    · simp only [find?, same, if_true, Option.some.injEq] at found
      simp [same, found]
    · simp only [find?, same, if_false] at found
      exact List.mem_cons_of_mem _ (ih found)

theorem find?_append (first second : Entries α) (key : String) :
    find? (first ++ second) key = (find? first key).or (find? second key) := by
  induction first with
  | nil => rfl
  | cons entry rest ih =>
    obtain ⟨k, v⟩ := entry
    rw [List.cons_append, find?, find?, ih]
    split <;> rfl

theorem find?_of_mem {entries : Entries α} (distinct : (keys entries).Nodup) {key : String}
    {value : α} (member : (key, value) ∈ entries) : find? entries key = some value := by
  induction entries with
  | nil => cases member
  | cons entry rest ih =>
    obtain ⟨k, v⟩ := entry
    simp only [keys_cons, List.nodup_cons] at distinct
    rcases List.mem_cons.mp member with here | later
    · cases here
      simp [find?]
    · have other : k ≠ key := by
        rintro rfl
        exact distinct.1 (List.mem_map_of_mem later)
      simp only [find?, other, if_false]
      exact ih distinct.2 later

theorem find?_congr {entries entries' : Entries α} (distinct : (keys entries).Nodup)
    (distinct' : (keys entries').Nodup) (same : ∀ e, e ∈ entries ↔ e ∈ entries') (key : String) :
    find? entries key = find? entries' key := by
  refine Option.ext fun value => ?_
  constructor
  · intro found
    exact find?_of_mem distinct' ((same _).mp (mem_of_find? found))
  · intro found
    exact find?_of_mem distinct ((same _).mpr (mem_of_find? found))

/-- Names in their order and a lookup determine the entries. -/
theorem ext_find? {entries entries' : Entries α} (sameKeys : keys entries = keys entries')
    (distinct : (keys entries).Nodup) (same : ∀ key, find? entries key = find? entries' key) :
    entries = entries' := by
  induction entries generalizing entries' with
  | nil => exact (List.map_eq_nil_iff.mp sameKeys.symm).symm
  | cons entry rest ih =>
    obtain ⟨k, v⟩ := entry
    cases entries' with
    | nil => cases sameKeys
    | cons entry' rest' =>
      obtain ⟨k', v'⟩ := entry'
      simp only [keys_cons, List.cons.injEq] at sameKeys
      obtain ⟨rfl, others⟩ := sameKeys
      simp only [keys_cons, List.nodup_cons] at distinct
      have value : v = v' := by simpa [find?] using same k
      have later : rest = rest' := by
        refine ih others distinct.2 fun key => ?_
        by_cases here : k = key
        · subst here
          rw [find?_eq_none_iff.mpr distinct.1, find?_eq_none_iff.mpr (others ▸ distinct.1)]
        · simpa [find?, here] using same key
      rw [value, later]

/-- A lookup in what was written, if all that was written to one name agrees. -/
theorem find?_ofList {pairs : List (String × α)} {lookup : String → Option α}
    (agree : ∀ p ∈ pairs, lookup p.1 = some p.2) (key : String) :
    find? (ofList pairs) key = if key ∈ keys pairs then lookup key else none := by
  -- what was written so far keeps counting for names that are not written any more
  suffices general : ∀ done : Entries α,
      find? (pairs.foldl (fun entries p => put entries p.1 p.2) done) key =
        if key ∈ keys pairs then lookup key else find? done key from general []
  induction pairs with
  | nil => intro done; simp
  | cons p rest ih =>
    intro done
    rw [List.foldl_cons, ih fun q member => agree q (List.mem_cons_of_mem _ member)]
    by_cases later : key ∈ keys rest
    · simp [later]
    · by_cases here : key = p.1
      · simp [here, find?_put_self, agree p List.mem_cons_self]
      · simp [later, here, find?_put_of_ne _ _ here]

theorem find?_filterMap {entries : Entries α} (distinct : (keys entries).Nodup)
    (g : α → Option β) (key : String) :
    find? (entries.filterMap fun p => (g p.2).map (p.1, ·)) key =
      (find? entries key).bind g := by
  induction entries with
  | nil => rfl
  | cons entry rest ih =>
    obtain ⟨k, v⟩ := entry
    simp only [keys_cons, List.nodup_cons] at distinct
    have others := ih distinct.2
    by_cases same : k = key
    · -- a value that the function drops does not uncover another one
      subst same
      have gone : find? rest k = none := find?_eq_none_iff.mpr distinct.1
      rw [gone] at others
      cases kept : g v <;> simp [find?, kept, others]
    · cases kept : g v <;> simp [find?, kept, same, others]

/-! ## First places and last values -/

def names (pairs : List (String × α)) : List String := (keys pairs).eraseDups

def last? (pairs : List (String × α)) (key : String) : Option α := find? pairs.reverse key

theorem mem_names {pairs : List (String × α)} {key : String} :
    key ∈ names pairs ↔ key ∈ keys pairs := List.mem_eraseDups

theorem ofList_concat (pairs : List (String × α)) (p : String × α) :
    ofList (pairs ++ [p]) = put (ofList pairs) p.1 p.2 := by
  rw [ofList, List.foldl_append]
  rfl

theorem keys_ofList (pairs : List (String × α)) : keys (ofList pairs) = names pairs := by
  induction pairs using List.reverseRecOn with
  | nil => rfl
  | append_singleton pairs p ih =>
    have concat : keys (pairs ++ [p]) = keys pairs ++ [p.1] := List.map_append
    rw [ofList_concat, keys_put, ih, names, names, concat, List.eraseDups_append]
    by_cases member : p.1 ∈ keys pairs
    · simp [List.removeAll, member]
    · simp [List.removeAll, member, List.eraseDups_cons]

theorem find?_ofList_eq_last? (pairs : List (String × α)) (key : String) :
    find? (ofList pairs) key = last? pairs key := by
  induction pairs using List.reverseRecOn with
  | nil => rfl
  | append_singleton pairs p ih =>
    rw [ofList_concat, last?, List.reverse_append]
    change _ = find? (p :: pairs.reverse) key
    by_cases same : p.1 = key
    · subst same
      simp [find?_put_self, find?]
    · rw [find?_put_of_ne _ _ (Ne.symm same), find?, if_neg same]
      exact ih

/-- The first uses of the names and their last values are all that stays. -/
theorem ofList_congr {pairs pairs' : List (String × α)} (sameNames : names pairs = names pairs')
    (sameValues : ∀ key, last? pairs key = last? pairs' key) : ofList pairs = ofList pairs' := by
  refine ext_find? ?_ (nodup_keys_ofList pairs) ?_
  · rw [keys_ofList, keys_ofList, sameNames]
  · intro key
    rw [find?_ofList_eq_last?, find?_ofList_eq_last?, sameValues]

/-! ## Names that are used once -/

theorem count_keys (entries : Entries α) (key : String) :
    (keys entries).count key = (entries.filter fun e => e.1 == key).length := by
  rw [keys, List.count, List.countP_map, List.countP_eq_length_filter]
  rfl

theorem single?_isSome {entries : Entries α} {key : String} :
    (single? entries key).isSome = true ↔ (keys entries).count key ≤ 1 := by
  rw [count_keys, single?]
  split
  · next none => simp [none]
  · next one => simp [one]
  · next uses none one =>
    -- neither no use nor one
    simp only [Option.isSome_none, Bool.false_eq_true, false_iff, Nat.not_le]
    cases filtered : entries.filter fun e => e.1 == key with
    | nil => exact absurd filtered none
    | cons e rest =>
      cases rest with
      | nil => exact absurd filtered (one e)
      | cons => simp

theorem mem_of_single? {entries : Entries α} {key : String} {given? : Option α}
    (single : single? entries key = some given?) (given : α) :
    (key, given) ∈ entries ↔ given? = some given := by
  have among : (key, given) ∈ entries ↔ (key, given) ∈ entries.filter fun e => e.1 == key := by
    simp
  rw [among]
  unfold single? at single
  split at single
  · next none =>
    cases single
    simp [none]
  · next e one =>
    obtain ⟨name, given'⟩ := e
    have own : (name, given') ∈ entries.filter fun e => e.1 == key := by simp [one]
    obtain rfl : name = key := by simpa using (List.mem_filter.mp own).2
    cases single
    simp [one, eq_comm]
  · cases single

/-! ## Values -/

def map (g : α → β) (entries : Entries α) : Entries β :=
  entries.filterMap fun p => (some (g p.2)).map (p.1, ·)

theorem map_cons (g : α → β) (key : String) (value : α) (rest : Entries α) :
    map g ((key, value) :: rest) = (key, g value) :: map g rest := rfl

theorem find?_map (g : α → β) (entries : Entries α) (key : String) :
    find? (map g entries) key = (find? entries key).map g := by
  induction entries with
  | nil => rfl
  | cons entry rest ih =>
    obtain ⟨k, v⟩ := entry
    rw [map_cons, find?, find?, ih]
    split <;> rfl

theorem map_put (g : α → β) (entries : Entries α) (key : String) (value : α) :
    map g (put entries key value) = put (map g entries) key (g value) := by
  induction entries with
  | nil => rfl
  | cons entry rest ih =>
    obtain ⟨k, v⟩ := entry
    rw [map_cons, put, put]
    split
    · rfl
    · rw [map_cons, ih]

end Entries

namespace Record

theorem put_of_find? {r : Record α} {key : String} {value : α}
    (found : r.find? key = some value) : r.put key value = r :=
  Record.ext (Entries.put_of_find? found)

theorem find?_filterMap (r : Record α) (g : α → Option β) (key : String) :
    (r.filterMap g).find? key = (r.find? key).bind g := Entries.find?_filterMap r.nodup g key

def map (g : α → β) (r : Record α) : Record β := r.filterMap fun value => some (g value)

theorem find?_map (g : α → β) (r : Record α) (key : String) :
    (r.map g).find? key = (r.find? key).map g := Entries.find?_map g r.entries key

theorem map_put (g : α → β) (r : Record α) (key : String) (value : α) :
    (r.put key value).map g = (r.map g).put key (g value) :=
  Record.ext (Entries.map_put g r.entries key value)

end Record

end Spellcraft
