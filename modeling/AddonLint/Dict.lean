/-!
# Dictionaries with text keys

A dictionary holds one value per key, in increasing order of the keys, so two dictionaries with
the same bindings are equal. Text is ordered by code point, which is the order of its bytes in
UTF-8.
-/
namespace AddonLint

/-- Bindings in strictly increasing order of their keys. -/
def KeysSorted {α : Type} (entries : List (String × α)) : Prop :=
  entries.Pairwise fun a b => a.1 < b.1

/-- A finite map from text, kept as its sorted list of bindings. -/
structure Dict (α : Type) where
  entries : List (String × α)
  sorted : KeysSorted entries

namespace Dict

variable {α β : Type}

/-- Put a binding into a sorted list, replacing an older one of the same key. -/
def insertEntry (key : String) (value : α) : List (String × α) → List (String × α)
  | [] => [(key, value)]
  | (k, v) :: rest =>
    if key < k then (key, value) :: (k, v) :: rest
    else if key = k then (key, value) :: rest
    else (k, v) :: insertEntry key value rest

theorem mem_insertEntry {key : String} {value : α} {entries : List (String × α)}
    {p : String × α} (h : p ∈ insertEntry key value entries) : p = (key, value) ∨ p ∈ entries := by
  induction entries with
  | nil => simpa [insertEntry] using h
  | cons e rest ih =>
    obtain ⟨k, v⟩ := e
    simp only [insertEntry] at h
    split at h
    · simpa using h
    · split at h
      · simp only [List.mem_cons] at h ⊢
        exact h.imp id Or.inr
      · simp only [List.mem_cons] at h ⊢
        rcases h with h | h
        · exact Or.inr (Or.inl h)
        · exact (ih h).imp id Or.inr

theorem sorted_insertEntry (key : String) (value : α) {entries : List (String × α)}
    (h : KeysSorted entries) : KeysSorted (insertEntry key value entries) := by
  unfold KeysSorted at *
  induction entries with
  | nil => simp [insertEntry]
  | cons e rest ih =>
    obtain ⟨k, v⟩ := e
    obtain ⟨hk, hrest⟩ := List.pairwise_cons.1 h
    simp only [insertEntry]
    split
    · rename_i hlt
      refine List.pairwise_cons.2 ⟨?_, h⟩
      intro p hp
      rcases List.mem_cons.1 hp with rfl | hp
      · exact hlt
      · exact String.lt_trans hlt (hk p hp)
    · split
      · rename_i heq
        subst heq
        exact List.pairwise_cons.2 ⟨hk, hrest⟩
      · rename_i hge hne
        refine List.pairwise_cons.2 ⟨?_, ih hrest⟩
        intro p hp
        rcases mem_insertEntry hp with rfl | hp
        · show k < key
          rcases Decidable.em (k < key) with hlt | hnlt
          · exact hlt
          · exact absurd (String.le_antisymm (String.not_lt.1 hnlt) (String.not_lt.1 hge)) hne
        · exact hk p hp

def empty : Dict α := ⟨[], List.Pairwise.nil⟩

/-- The dictionary with one more binding, which replaces an older one of the same key. -/
def insert (d : Dict α) (key : String) (value : α) : Dict α :=
  ⟨insertEntry key value d.entries, sorted_insertEntry key value d.sorted⟩

/-- The bindings of a list, the last one of a key winning. -/
def ofList (entries : List (String × α)) : Dict α :=
  entries.foldl (fun d e => d.insert e.1 e.2) empty

def get? (d : Dict α) (key : String) : Option α := d.entries.lookup key

def contains (d : Dict α) (key : String) : Bool := (d.get? key).isSome

/-- The keys in increasing order. -/
def keys (d : Dict α) : List String := d.entries.map (·.1)

/-- The values in the order of their keys. -/
def values (d : Dict α) : List α := d.entries.map (·.2)

def size (d : Dict α) : Nat := d.entries.length

theorem ext {d e : Dict α} (h : d.entries = e.entries) : d = e := by
  cases d; cases e; simp_all

instance [DecidableEq α] : DecidableEq (Dict α) := fun d e =>
  decidable_of_iff (d.entries = e.entries) ⟨ext, fun h => h ▸ rfl⟩

instance : Inhabited (Dict α) := ⟨empty⟩

end Dict

/-- A set of texts: a dictionary whose values say nothing. -/
abbrev TextSet := Dict Unit

namespace TextSet

/-- The set of the members of a list. -/
def ofList (items : List String) : TextSet := Dict.ofList (items.map fun s => (s, ()))

def toList (s : TextSet) : List String := s.keys

end TextSet

end AddonLint
