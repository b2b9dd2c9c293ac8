import AddonLint.Dict
import AddonLint.Proofs.ByteOrder

/-!
# What a dictionary holds

The keys of a dictionary increase strictly, so looking a key up finds its one
binding. An insertion changes the value of its own key and of no other, and a
dictionary is determined by the values of its keys. A dictionary made from a list has its
keys, and keeps every binding if they are different. A set made from a list has the
members of the list, whatever their order and however often they occur.
-/
namespace AddonLint.Dict

variable {α : Type}

theorem lookup_eq_some_iff {entries : List (String × α)} (hs : KeysSorted entries) {key : String}
    {value : α} : entries.lookup key = some value ↔ (key, value) ∈ entries := by
  constructor
  · intro h
    obtain ⟨before, after, rfl, -⟩ := List.lookup_eq_some_iff.1 h
    exact List.mem_append_right before List.mem_cons_self
  · intro h
    obtain ⟨before, after, rfl⟩ := List.append_of_mem h
    refine List.lookup_eq_some_iff.2 ⟨before, after, rfl, fun e he => ?_⟩
    have hlt : e.1 < key := (List.pairwise_append.1 hs).2.2 e he _ List.mem_cons_self
    exact bne_iff_ne.2 (String.ne_of_lt hlt).symm

theorem get?_eq_some_iff {d : Dict α} {key : String} {value : α} :
    d.get? key = some value ↔ (key, value) ∈ d.entries := lookup_eq_some_iff d.sorted

theorem contains_iff {d : Dict α} {key : String} :
    d.contains key = true ↔ ∃ value, d.get? key = some value := Option.isSome_iff_exists

theorem contains_eq_false_iff {d : Dict α} {key : String} :
    d.contains key = false ↔ d.get? key = none := by
  rw [contains, Option.isSome_eq_false_iff, Option.isNone_iff_eq_none]

theorem mem_keys_iff {d : Dict α} {key : String} : key ∈ d.keys ↔ d.contains key = true := by
  rw [keys, List.mem_map, contains_iff]
  constructor
  · rintro ⟨⟨k, value⟩, he, rfl⟩
    exact ⟨value, get?_eq_some_iff.2 he⟩
  · rintro ⟨value, h⟩
    exact ⟨(key, value), get?_eq_some_iff.1 h, rfl⟩

theorem pairwise_keys (d : Dict α) : d.keys.Pairwise (· < ·) := List.pairwise_map.2 d.sorted

/-- A new binding replaces the one of its key and leaves the others. -/
theorem mem_insertEntry_iff {key : String} {value : α} {entries : List (String × α)}
    (hs : KeysSorted entries) {e : String × α} :
    e ∈ insertEntry key value entries ↔ e = (key, value) ∨ e ∈ entries ∧ e.1 ≠ key := by
  induction entries with
  | nil => simp [insertEntry]
  | cons first rest ih =>
    obtain ⟨k, v⟩ := first
    obtain ⟨hk, hrest⟩ := List.pairwise_cons.1 hs
    rw [insertEntry]
    split
    · -- The new binding stands in front, so none of the others has its key.
      rename_i hlt
      have hne : ∀ x ∈ (k, v) :: rest, x.1 ≠ key := by
        intro x hx
        rcases List.mem_cons.1 hx with rfl | hx
        · exact (String.ne_of_lt hlt).symm
        · exact (String.ne_of_lt (String.lt_trans hlt (hk x hx))).symm
      rw [List.mem_cons]
      exact or_congr_right ⟨fun h => ⟨h, hne e h⟩, fun h => h.1⟩
    · split
      · rename_i heq
        subst heq
        have hne : e ∈ rest → e.1 ≠ key := fun h => (String.ne_of_lt (hk e h)).symm
        rw [List.mem_cons, List.mem_cons]
        refine or_congr_right ⟨fun h => ⟨.inr h, hne h⟩, fun h => h.1.resolve_left ?_⟩
        rintro rfl
        exact h.2 rfl
      · rename_i hne
        rw [List.mem_cons, List.mem_cons, ih hrest]
        constructor
        · rintro (rfl | rfl | ⟨h, hx⟩)
          · exact .inr ⟨.inl rfl, fun heq => hne heq.symm⟩
          · exact .inl rfl
          · exact .inr ⟨.inr h, hx⟩
        · rintro (rfl | ⟨rfl | h, hx⟩)
          · exact .inr (.inl rfl)
          · exact .inl rfl
          · exact .inr (.inr ⟨h, hx⟩)

/-- The binding of a new key is added to those that were there. -/
theorem perm_insertEntry {key : String} {value : α} {entries : List (String × α)}
    (h : entries.lookup key = none) :
    (insertEntry key value entries).Perm ((key, value) :: entries) := by
  induction entries with
  | nil => exact .refl _
  | cons e rest ih =>
    have hnone := List.lookup_eq_none_iff.1 h
    have hne : key ≠ e.1 := bne_iff_ne.1 (hnone e List.mem_cons_self)
    have hrest : rest.lookup key = none :=
      List.lookup_eq_none_iff.2 fun x hx => hnone x (List.mem_cons_of_mem _ hx)
    rw [insertEntry]
    split
    · exact .refl _
    · exact ((ih hrest).cons e).trans (.swap ..)

theorem get?_insert_self (d : Dict α) (key : String) (value : α) :
    (d.insert key value).get? key = some value :=
  get?_eq_some_iff.2 ((mem_insertEntry_iff d.sorted).2 (.inl rfl))

/-- An insertion leaves the other keys alone. -/
theorem get?_insert_of_ne (d : Dict α) {key k : String} (value : α) (h : k ≠ key) :
    (d.insert key value).get? k = d.get? k := by
  ext v
  rw [get?_eq_some_iff, get?_eq_some_iff, insert, mem_insertEntry_iff d.sorted]
  constructor
  · rintro (heq | ⟨hmem, -⟩)
    · exact absurd (congrArg Prod.fst heq) h
    · exact hmem
  · exact fun hmem => .inr ⟨hmem, h⟩

theorem get?_insert (d : Dict α) (key k : String) (value : α) :
    (d.insert key value).get? k = if k = key then some value else d.get? k := by
  split
  · rename_i h
    rw [h, get?_insert_self]
  · rename_i h
    exact get?_insert_of_ne d value h

/-- The values of all keys determine a dictionary. -/
theorem ext_get? {d e : Dict α} (h : ∀ key, d.get? key = e.get? key) : d = e := by
  refine ext (Text.eq_of_increasing Prod.fst d.sorted e.sorted fun x => ?_)
  rw [← get?_eq_some_iff (d := d), ← get?_eq_some_iff (d := e), h]

theorem contains_foldl_insert (entries : List (String × α)) (d : Dict α) (key : String) :
    (entries.foldl (fun d e => d.insert e.1 e.2) d).contains key = true ↔
      d.contains key = true ∨ key ∈ entries.map Prod.fst := by
  induction entries generalizing d with
  | nil => simp
  | cons e rest ih =>
    rw [List.foldl_cons, ih, contains, get?_insert, List.map_cons, List.mem_cons]
    by_cases h : key = e.1
    · simp [h]
    · simp [h, contains]

theorem contains_ofList {entries : List (String × α)} {key : String} :
    (ofList entries).contains key = true ↔ key ∈ entries.map Prod.fst := by
  rw [ofList, contains_foldl_insert]
  exact or_iff_right Bool.false_ne_true

theorem nodup_of_sorted {entries : List (String × α)} (hs : KeysSorted entries) :
    (entries.map Prod.fst).Nodup :=
  List.pairwise_map.2 (hs.imp fun hlt => String.ne_of_lt hlt)

/-- Bindings with distinct keys all count, and hide older ones. -/
theorem get?_foldl_insert {entries : List (String × α)} (h : (entries.map Prod.fst).Nodup)
    (d : Dict α) (key : String) :
    (entries.foldl (fun d e => d.insert e.1 e.2) d).get? key =
      (entries.lookup key).or (d.get? key) := by
  induction entries generalizing d with
  | nil => rfl
  | cons e rest ih =>
    obtain ⟨hnot, hrest⟩ := List.nodup_cons.1 h
    rw [List.foldl_cons, ih hrest, List.lookup_cons, get?_insert]
    by_cases heq : key = e.1
    · have hnone : rest.lookup key = none := List.lookup_eq_none_iff.2 fun m hm =>
        bne_iff_ne.2 fun hkey => hnot (heq ▸ hkey ▸ List.mem_map_of_mem hm)
      rw [if_pos heq, hnone, beq_iff_eq.2 heq]
      rfl
    · rw [if_neg heq, beq_false_of_ne heq]

/-- Of bindings with different keys, a dictionary keeps each. -/
theorem get?_ofList {entries : List (String × α)} (h : (entries.map Prod.fst).Nodup)
    (key : String) : (ofList entries).get? key = entries.lookup key := by
  rw [ofList, get?_foldl_insert h]
  exact Option.or_none

/-- Leaving out keys does not change what the others have. -/
theorem lookup_filter_keys (entries : List (String × α)) (keys : List String)
    (key : String) : (entries.filter fun e => e.1 ∉ keys).lookup key =
      if key ∈ keys then none else entries.lookup key := by
  induction entries with
  | nil => simp
  | cons e rest ih =>
    rw [List.filter_cons, List.lookup_cons]
    by_cases hkept : e.1 ∈ keys
    · rw [if_neg (by simpa using hkept), ih]
      by_cases heq : key = e.1
      · rw [heq, if_pos hkept, if_pos hkept]
      · rw [beq_false_of_ne heq]
    · rw [if_pos (decide_eq_true hkept), List.lookup_cons, ih]
      by_cases heq : key = e.1
      · simp [heq, hkept]
      · rw [beq_false_of_ne heq]

theorem ofList_entries (d : Dict α) : ofList d.entries = d :=
  ext_get? fun key => get?_ofList (nodup_of_sorted d.sorted) key

end AddonLint.Dict

namespace AddonLint.TextSet

theorem contains_ofList {items : List String} {text : String} :
    (ofList items).contains text = true ↔ text ∈ items := by
  rw [ofList, Dict.contains_ofList, List.map_map]
  exact iff_of_eq (congrArg (text ∈ ·) (List.map_id items))

/-- A set is determined by its members. -/
theorem ext_contains {s t : TextSet}
    (h : ∀ text, s.contains text = true ↔ t.contains text = true) : s = t := by
  refine Dict.ext_get? fun text => Option.ext fun member => ?_
  have hmem := h text
  rw [Dict.contains_iff, Dict.contains_iff, Unique.exists_iff, Unique.exists_iff] at hmem
  exact hmem

theorem eq_empty_iff {s : TextSet} : s = Dict.empty ↔ ∀ text, s.contains text = false := by
  constructor
  · rintro rfl text
    rfl
  · intro h
    refine ext_contains fun text => ?_
    rw [h text]
    exact ⟨fun hfalse => hfalse, fun hfalse => hfalse⟩

end AddonLint.TextSet
