import AddonLint.Proofs.Filters

/-!
# How a comma-separated list may be written

A list of texts may be written in many ways: each text in a field of its own with any
blanks around it, and as many blank fields as one likes in between. All of them are read
as the same list, and every text at all is a way to write the list it is read as.
-/
namespace AddonLint.Text

/-- Fields that write some texts: one field for each text, in order, with blanks around it,
and blank fields anywhere. -/
inductive Writes : (written texts : List String) → Prop
  | nil : Writes [] []
  | blank {field : String} {written texts : List String} :
      Blank field → Writes written texts → Writes (field :: written) texts
  | text {lead text trail : String} {written texts : List String} :
      Blank lead → Blank trail → Writes written texts →
      Writes ((lead ++ text ++ trail) :: written) (text :: texts)

theorem comma_not_mem_of_blank {s : String} (h : Blank s) : ',' ∉ s.toList := by
  intro hcomma
  have hblank := h ',' hcomma
  revert hblank
  decide

/-- Blanks around a text that has none at its ends are what is taken away. -/
theorem trims_padded {lead text trail : String} (hlead : Blank lead) (htrail : Blank trail)
    (h : Trims text text) : Trims (lead ++ text ++ trail) text := by
  refine ⟨⟨lead.toList, trail.toList, ?_, hlead, htrail⟩, h.first, h.last⟩
  rw [String.toList_append, String.toList_append]

/-- What trimming removes is blank on both sides. -/
theorem exists_padded_of_trims {s t : String} (h : Trims s t) :
    ∃ lead trail, s = lead ++ t ++ trail ∧ Blank lead ∧ Blank trail := by
  obtain ⟨lead, trail, hs, hlead, htrail⟩ := h.split
  refine ⟨String.ofList lead, String.ofList trail, ?_, ?_, ?_⟩
  · rw [← String.toList_inj, hs, String.toList_append, String.toList_append,
      String.toList_ofList, String.toList_ofList]
  · rwa [Blank, String.toList_ofList]
  · rwa [Blank, String.toList_ofList]

theorem isField_trim {field : String} (hcomma : ',' ∉ field.toList) (hne : trim field ≠ "") :
    IsField (trim field) := by
  have htrims := trims_trim field
  exact ⟨hne, fun hmem => hcomma (htrims.subset hmem), htrims.self⟩

theorem isField_of_mem_fields {raw text : String} (h : text ∈ fields raw) : IsField text := by
  obtain ⟨written, rfl, hcomma⟩ := exists_intercalate raw
  rw [fields_intercalate_eq hcomma, List.mem_filter, decide_eq_true_eq] at h
  obtain ⟨hmem, hne⟩ := h
  obtain ⟨field, hfield, rfl⟩ := List.mem_map.1 hmem
  exact isField_trim (hcomma field hfield) hne

/-- What is left of fields when they are trimmed and the blank ones do not count. -/
theorem Writes.trimmed {written texts : List String} (h : Writes written texts)
    (hfields : ∀ text ∈ texts, IsField text) : (written.map trim).filter (· ≠ "") = texts := by
  induction h with
  | nil => rfl
  | blank hblank _ ih =>
    rw [List.map_cons, trim_eq_empty_iff.2 hblank]
    exact ih hfields
  | @text lead text trail written texts hlead htrail _ ih =>
    obtain ⟨hfield, hrest⟩ := List.forall_mem_cons.1 hfields
    have htrim : trim (lead ++ text ++ trail) = text :=
      trim_of_trims (trims_padded hlead htrail hfield.trimmed)
    rw [List.map_cons, htrim, List.filter_cons_of_pos (by simpa using hfield.ne_empty), ih hrest]

theorem Writes.no_comma {written texts : List String} (h : Writes written texts)
    (hfields : ∀ text ∈ texts, IsField text) : ∀ field ∈ written, ',' ∉ field.toList := by
  induction h with
  | nil => exact nofun
  | blank hblank _ ih => exact List.forall_mem_cons.2 ⟨comma_not_mem_of_blank hblank, ih hfields⟩
  | text hlead htrail _ ih =>
    obtain ⟨hfield, hrest⟩ := List.forall_mem_cons.1 hfields
    refine List.forall_mem_cons.2 ⟨?_, ih hrest⟩
    rw [String.toList_append, String.toList_append, List.mem_append, List.mem_append]
    exact not_or.2 ⟨not_or.2 ⟨comma_not_mem_of_blank hlead, hfield.no_comma⟩,
      comma_not_mem_of_blank htrail⟩

/-- Any fields write the texts that are left of them. -/
theorem writes_trimmed (written : List String) :
    Writes written ((written.map trim).filter (· ≠ "")) := by
  induction written with
  | nil => exact .nil
  | cons field written ih =>
    rw [List.map_cons]
    by_cases hempty : trim field = ""
    · rw [List.filter_cons_of_neg (by simpa using hempty)]
      exact .blank (trim_eq_empty_iff.1 hempty) ih
    · rw [List.filter_cons_of_pos (by simpa using hempty)]
      obtain ⟨lead, trail, hfield, hlead, htrail⟩ := exists_padded_of_trims (trims_trim field)
      have hwrites : Writes ((lead ++ trim field ++ trail) :: written)
          (trim field :: (written.map trim).filter (· ≠ "")) := .text hlead htrail ih
      rwa [← hfield] at hwrites

/-- The list that a text is read as: its members have no commas and no blanks at their ends, the
text is one of the ways to write them, and all ways to write such a list are read as this list,
so reading what was read changes nothing. The set of codes of a text has the same members. -/
theorem fields_written (raw : String) :
    (∀ text ∈ fields raw, IsField text) ∧
    (∃ written, Writes written (fields raw) ∧ raw = String.intercalate "," written) ∧
    (∀ written texts, Writes written texts → (∀ text ∈ texts, IsField text) →
      fields (String.intercalate "," written) = texts) ∧
    fields (String.intercalate "," (fields raw)) = fields raw ∧
    (∀ code, (Filter.codes raw).contains code = true ↔ code ∈ fields raw) ∧
    (∀ code, code ∈ (Filter.codes raw).toList ↔ code ∈ fields raw) := by
  have hcodes : ∀ code, (Filter.codes raw).contains code = true ↔ code ∈ fields raw := fun code =>
    Filter.contains_codes.trans mem_fields_iff.symm
  have hread : ∀ text ∈ fields raw, IsField text := fun _ => isField_of_mem_fields
  refine ⟨hread, ?_, fun written texts h hfields => ?_, fields_intercalate hread, hcodes,
    fun code => Dict.mem_keys_iff.trans (hcodes code)⟩
  · obtain ⟨written, rfl, hcomma⟩ := exists_intercalate raw
    refine ⟨written, ?_, rfl⟩
    rw [fields_intercalate_eq hcomma]
    exact writes_trimmed written
  · rw [fields_intercalate_eq (h.no_comma hfields), h.trimmed hfields]

/-- One text twice, with blanks of several kinds and blank fields around it. -/
theorem fields_written_twice :
    let texts := ["a b", "AM1", "a b"]
    let written := ["\t", "\u3000" ++ "a b" ++ " ", "" ++ "AM1" ++ "", "", " ", "" ++ "a b" ++ "\n"]
    (∀ text ∈ texts, IsField text) ∧ Writes written texts ∧
      String.intercalate "," written = "\t,\u3000a b ,AM1,, ,a b\n" ∧
      fields "\t,\u3000a b ,AM1,, ,a b\n" = texts := by
  intro texts written
  have htexts : fields "a b,AM1,a b" = texts := by decide +kernel
  have hfields : ∀ text ∈ texts, IsField text := htexts ▸ (fields_written "a b,AM1,a b").1
  have hall : (["", "\t", "\u3000", " ", "\n"].all fun s => s.toList.all isBlank) = true := by
    decide +kernel
  have hblank : ∀ s ∈ ["", "\t", "\u3000", " ", "\n"], Blank s := fun s hs =>
    List.all_eq_true.1 (List.all_eq_true.1 hall s hs)
  simp only [List.forall_mem_cons] at hblank
  obtain ⟨hnone, htab, hwide, hspace, hbreak, -⟩ := hblank
  have hwrites : Writes written texts :=
    .blank htab (.text hwide hspace (.text hnone hnone (.blank hnone (.blank hspace
      (.text hnone hbreak .nil)))))
  have hraw : String.intercalate "," written = "\t,\u3000a b ,AM1,, ,a b\n" := by decide +kernel
  exact ⟨hfields, hwrites, hraw, hraw ▸ (fields_written "").2.2.1 written texts hwrites hfields⟩

end AddonLint.Text
