import AddonLint.Proofs.Blanks
import AddonLint.Text.Fields
import Mathlib.Data.Set.Basic

/-!
# Comma-separated lists name sets of texts

What a raw list names are its fields between commas, each without the blanks around
it, as far as they are not empty. Only this set counts where order and repetition do
not. Texts without commas and without blanks at their ends can be joined with commas
and read back.
-/
namespace AddonLint.Text

/-- The texts that a comma-separated list names. -/
def Listed (raw : String) : Set String :=
  {text | text ≠ "" ∧ ∃ field ∈ raw.toList.splitOn ',', Trims (String.ofList field) text}

theorem cutAt_eq_splitOn (sep : Char) (cs : List Char) : cutAt sep cs = cs.splitOn sep := by
  induction cs with
  | nil => rfl
  | cons c cs ih =>
    have hne : cs.splitOn sep ≠ [] := List.splitOn_ne_nil sep cs
    obtain ⟨piece, pieces, hpieces⟩ := List.exists_cons_of_ne_nil hne
    rw [cutAt, ih, List.splitOn_cons_eq_if_modifyHead, hpieces]
    by_cases h : c = sep <;> simp [h]

/-- The pieces hold the characters of the text, but for the separators. -/
theorem flatten_splitOn (sep : Char) (cs : List Char) :
    (cs.splitOn sep).flatten = cs.filter (· ≠ sep) := by
  induction cs with
  | nil => rfl
  | cons c cs ih =>
    have hne : cs.splitOn sep ≠ [] := List.splitOn_ne_nil sep cs
    obtain ⟨piece, pieces, hpieces⟩ := List.exists_cons_of_ne_nil hne
    rw [hpieces] at ih
    rw [List.splitOn_cons_eq_if_modifyHead, hpieces]
    by_cases h : c = sep <;> simpa [h] using ih

/-- Cutting at a separator loses nothing but the separator. -/
theorem exists_mem_piece_iff {sep c : Char} {cs : List Char} :
    (∃ piece ∈ cs.splitOn sep, c ∈ piece) ↔ c ∈ cs ∧ c ≠ sep := by
  rw [← List.mem_flatten, flatten_splitOn, List.mem_filter, decide_eq_true_eq]

theorem ofList_eq_empty_iff {cs : List Char} : String.ofList cs = "" ↔ cs = [] := by
  rw [← String.toList_inj, String.toList_ofList, String.toList_empty]

theorem mem_fields_iff {raw text : String} : text ∈ fields raw ↔ text ∈ Listed raw := by
  simp only [fields, Listed, cutAt_eq_splitOn, List.mem_map, List.mem_filter, decide_eq_true_eq,
    Set.mem_ofPred_eq, ← trim_eq_iff, trim, String.toList_ofList]
  constructor
  · rintro ⟨_, ⟨⟨field, hfield, rfl⟩, hne⟩, rfl⟩
    exact ⟨fun hempty => hne (ofList_eq_empty_iff.1 hempty), field, hfield, rfl⟩
  · rintro ⟨hne, field, hfield, rfl⟩
    exact ⟨_, ⟨⟨field, hfield, rfl⟩, fun hnil => hne (ofList_eq_empty_iff.2 hnil)⟩, rfl⟩

/-- A text that stands in a list as it is: not empty, without commas and without blanks at
its ends. -/
structure IsField (text : String) : Prop where
  ne_empty : text ≠ ""
  no_comma : ',' ∉ text.toList
  trimmed : Trims text text

theorem toList_ne_nil {text : String} (h : text ≠ "") : text.toList ≠ [] := fun hnil =>
  h (String.toList_eq_nil_iff.1 hnil)

theorem map_ofList_filter (pieces : List (List Char)) :
    (pieces.filter (· ≠ [])).map String.ofList = (pieces.map String.ofList).filter (· ≠ "") := by
  rw [List.filter_map]
  congr 1
  refine List.filter_congr fun cs _ => ?_
  simp only [Function.comp_apply, ne_eq, ofList_eq_empty_iff]

/-- Every text is a list of fields, which have no commas, joined with commas. -/
theorem exists_intercalate (raw : String) : ∃ written : List String,
    raw = String.intercalate "," written ∧ ∀ field ∈ written, ',' ∉ field.toList := by
  refine ⟨(raw.toList.splitOn ',').map String.ofList, ?_, ?_⟩
  · rw [← String.toList_inj, String.toList_intercalate, List.map_map]
    have hmap : (raw.toList.splitOn ',').map (String.toList ∘ String.ofList) =
        raw.toList.splitOn ',' :=
      (List.map_congr_left fun _ _ => String.toList_ofList).trans (List.map_id _)
    rw [hmap]
    exact (List.intercalate_splitOn ',').symm
  · intro field hfield hcomma
    obtain ⟨cs, hcs, rfl⟩ := List.mem_map.1 hfield
    rw [String.toList_ofList] at hcomma
    exact (exists_mem_piece_iff.1 ⟨cs, hcs, hcomma⟩).2 rfl

/-- Joined fields are read one by one: each is trimmed, and counts if something is left. -/
theorem fields_intercalate_eq {written : List String}
    (h : ∀ field ∈ written, ',' ∉ field.toList) :
    fields (String.intercalate "," written) = (written.map trim).filter (· ≠ "") := by
  by_cases hnil : written = []
  · rw [hnil]
    rfl
  have hsplit : (String.intercalate "," written).toList.splitOn ',' =
      written.map String.toList := by
    rw [String.toList_intercalate]
    refine List.splitOn_intercalate ',' ?_ (fun h0 => hnil (List.map_eq_nil_iff.1 h0))
    intro cs hcs
    obtain ⟨field, hfield, rfl⟩ := List.mem_map.1 hcs
    exact h field hfield
  have htrim : written.map trim =
      ((written.map String.toList).map trimChars).map String.ofList := by
    rw [List.map_map, List.map_map]
    rfl
  rw [fields, cutAt_eq_splitOn, hsplit, htrim, map_ofList_filter]

/-- Joined fields are read back, in their order and with repetitions. -/
theorem fields_intercalate {texts : List String} (h : ∀ text ∈ texts, IsField text) :
    fields (String.intercalate "," texts) = texts := by
  have htrim : texts.map trim = texts :=
    (List.map_congr_left fun text htext => trim_of_trims (h text htext).trimmed).trans
      (List.map_id texts)
  rw [fields_intercalate_eq fun text htext => (h text htext).no_comma, htrim]
  exact List.filter_eq_self.2 fun text htext => decide_eq_true (h text htext).ne_empty

/-- Texts that are joined by commas are all named, and no other text is. -/
theorem listed_intercalate {texts : List String} (h : ∀ text ∈ texts, IsField text) :
    Listed (String.intercalate "," texts) = {text | text ∈ texts} := by
  ext text
  rw [← mem_fields_iff, fields_intercalate h]
  rfl

end AddonLint.Text
