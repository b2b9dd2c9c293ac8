import AddonLint.Proofs.RefusedVersions

/-!
# Names of image sets

A name encodes a version for an addon if it is the name of the addon, a mark and the text of the
version. The name of the addon may be any text that is not empty, even one that ends in a mark or in
a version, because only what stands behind the last mark counts as the version. Any other name is
refused: it has no mark, no addon in front of the last mark, or a flaw behind it.
-/
namespace AddonLint.ImageSetName

/-! ### The last mark -/

theorem splitAtMark?_ne_none (addon version : List Char) :
    splitAtMark? (addon ++ '.' :: 'v' :: version) ≠ none := by
  induction addon with
  | nil =>
    rw [List.nil_append]
    unfold splitAtMark?
    cases splitAtMark? ('v' :: version) with
    | some parts => exact Option.some_ne_none _
    | none => exact Option.some_ne_none _
  | cons c addon ih =>
    obtain ⟨parts, hparts⟩ := Option.ne_none_iff_exists'.1 ih
    rw [List.cons_append]
    unfold splitAtMark?
    rw [hparts]
    exact Option.some_ne_none _

theorem splitAtMark?_eq_none_iff {cs : List Char} :
    splitAtMark? cs = none ↔ ¬ ['.', 'v'] <:+: cs := by
  constructor
  · rintro h ⟨addon, version, rfl⟩
    rw [List.append_assoc] at h
    exact splitAtMark?_ne_none addon version h
  · intro h
    cases hsplit : splitAtMark? cs with
    | none => rfl
    | some parts =>
      refine absurd ⟨parts.1, parts.2, ?_⟩ h
      rw [eq_append_of_splitAtMark? hsplit, List.append_assoc]
      rfl

/-- Nothing that was split off is split again. -/
theorem splitAtMark?_version {cs addon version : List Char}
    (h : splitAtMark? cs = some (addon, version)) : splitAtMark? version = none := by
  induction cs generalizing addon with
  | nil => cases h
  | cons c cs ih =>
    unfold splitAtMark? at h
    split at h
    · rename_i addon' version' hrest
      obtain ⟨-, rfl⟩ := Prod.mk.inj (Option.some.inj h)
      exact ih hrest
    · rename_i hrest
      split at h
      · rename_i version'
        obtain ⟨-, rfl⟩ := Prod.mk.inj (Option.some.inj h)
        -- No mark comes after the `v`, so none comes after what follows it.
        rw [splitAtMark?_eq_none_iff] at hrest ⊢
        exact fun hmark => hrest (hmark.trans (List.infix_cons List.infix_rfl))
      · cases h

/-- A name is cut at its last mark. -/
theorem splitAtMark?_eq_some_iff {cs addon version : List Char} :
    splitAtMark? cs = some (addon, version) ↔
      cs = addon ++ '.' :: 'v' :: version ∧ ¬ ['.', 'v'] <:+: version := by
  rw [← splitAtMark?_eq_none_iff]
  constructor
  · exact fun h => ⟨eq_append_of_splitAtMark? h, splitAtMark?_version h⟩
  · rintro ⟨rfl, h⟩
    exact splitAtMark?_append h addon

/-- What stands before the last mark of a name and what stands behind it. -/
structure Parts (name addon version : String) : Prop where
  split : name = addon ++ ".v" ++ version
  last : ¬ ['.', 'v'] <:+: version.toList

theorem parts_iff {name addon version : String} :
    Parts name addon version ↔
      splitAtMark? name.toList = some (addon.toList, version.toList) := by
  have hsplit : name = addon ++ ".v" ++ version ↔
      name.toList = addon.toList ++ '.' :: 'v' :: version.toList := by
    rw [← String.toList_inj]
    simp
  rw [splitAtMark?_eq_some_iff, ← hsplit]
  exact ⟨fun h => ⟨h.split, h.last⟩, fun h => ⟨h.1, h.2⟩⟩

/-! ### Names that are read and names that are refused -/

/-- The version is read behind the mark, provided something stands before it. -/
theorem version?_of_parts {name addon version : String} (h : Parts name addon version) :
    version? name = if addon = "" then none else SemVer.parsePlain? version := by
  rw [version?, parts_iff.1 h]
  simp only [String.toList_eq_nil_iff, String.ofList_toList]

theorem exists_parts {name : String} (h : ['.', 'v'] <:+: name.toList) :
    ∃ addon version, Parts name addon version := by
  have hsome : splitAtMark? name.toList ≠ none := fun hnone => splitAtMark?_eq_none_iff.1 hnone h
  obtain ⟨⟨addon, version⟩, hparts⟩ := Option.ne_none_iff_exists'.1 hsome
  refine ⟨String.ofList addon, String.ofList version, ?_⟩
  rw [parts_iff, String.toList_ofList, String.toList_ofList, hparts]

theorem version?_eq_none_iff {name : String} :
    version? name = none ↔ ¬ ['.', 'v'] <:+: name.toList ∨
      ∃ addon version, Parts name addon version ∧ (addon = "" ∨ SemVer.Flaw version.toList) := by
  constructor
  · intro h
    refine or_iff_not_imp_left.2 fun hmark => ?_
    obtain ⟨addon, version, hparts⟩ := exists_parts (not_not.1 hmark)
    refine ⟨addon, version, hparts, or_iff_not_imp_left.2 fun haddon => ?_⟩
    rw [version?_of_parts hparts, if_neg haddon] at h
    exact SemVer.parsePlain?_eq_none_iff.1 h
  · rintro (hmark | ⟨addon, version, hparts, hrefused⟩)
    · rw [version?, splitAtMark?_eq_none_iff.2 hmark]
    · rw [version?_of_parts hparts]
      rcases hrefused with haddon | hflaw
      · exact if_pos haddon
      · rw [SemVer.parsePlain?_eq_none_iff.2 hflaw, ite_self]

/-- A name encodes a version for an addon. -/
structure Encodes (name addon : String) (v : SemVer) : Prop where
  ne_empty : addon ≠ ""
  plain : v.isPlain = true
  split : name = addon ++ ".v" ++ v.numbersText

theorem version?_eq_some_iff_encodes {name : String} {v : SemVer} :
    version? name = some v ↔ ∃ addon, Encodes name addon v := by
  rw [version?_eq_some_iff]
  constructor
  · rintro ⟨hplain, addon, haddon, hname⟩
    exact ⟨addon, haddon, hplain, by rw [hname, SemVer.text_of_isPlain hplain]⟩
  · rintro ⟨addon, haddon, hplain, hname⟩
    exact ⟨hplain, addon, haddon, by rw [hname, SemVer.text_of_isPlain hplain]⟩

theorem Encodes.unique {name addon addon' : String} {v v' : SemVer} (h : Encodes name addon v)
    (h' : Encodes name addon' v') : addon = addon' ∧ v = v' := by
  have hread := version?_eq_some_iff_encodes.2 ⟨addon, h⟩
  have hread' := version?_eq_some_iff_encodes.2 ⟨addon', h'⟩
  obtain rfl : v = v' := Option.some.inj (hread.symm.trans hread')
  refine ⟨?_, rfl⟩
  have hnames := h.split.symm.trans h'.split
  rw [← String.toList_inj] at hnames ⊢
  simp only [String.toList_append, List.append_assoc] at hnames
  exact List.append_cancel_right hnames

theorem foreign_of_isBlank {c : Char} (h : Text.isBlank c = true) :
    c.isDigit = false ∧ c ≠ '.' := by
  constructor
  · by_contra hdigit
    rw [Bool.not_eq_false, ← Numeral.isDigit_eq] at hdigit
    rw [Text.not_isBlank_of_isAlphanum (Numeral.isAlphanum_iff.2 (.inl hdigit))] at h
    exact Bool.false_ne_true h
  · rintro rfl
    exact absurd h (by decide)

/-- Blanks around the version, or in it, are not forgiven. -/
theorem version?_of_blank {name addon version : String} {c : Char}
    (hparts : Parts name addon version) (hmem : c ∈ version.toList)
    (h : Text.isBlank c = true) : version? name = none := by
  obtain ⟨hdigit, hpoint⟩ := foreign_of_isBlank h
  exact version?_eq_none_iff.2 (.inr ⟨addon, version, hparts, .inr (.foreign hmem hdigit hpoint)⟩)

/-- A blank at the end of a name stands behind its last mark. -/
theorem version?_push {name : String} {c : Char} (h : Text.isBlank c = true) :
    version? (name.push c) = none := by
  by_cases hmark : ['.', 'v'] <:+: (name.push c).toList
  · obtain ⟨addon, version, hparts⟩ := exists_parts hmark
    rcases List.eq_nil_or_concat version.toList with hnil | ⟨init, last, hversion⟩
    · refine version?_eq_none_iff.2 (.inr ⟨addon, version, hparts, .inr ?_⟩)
      rw [hnil]
      exact .missing (by decide)
    · have hname := congrArg String.toList hparts.split
      rw [String.toList_push, String.toList_append, hversion, List.concat_eq_append,
        ← List.append_assoc] at hname
      obtain rfl : c = last := List.singleton_inj.1 (List.append_inj_right' hname rfl)
      refine version?_of_blank hparts ?_ h
      rw [hversion, List.concat_eq_append]
      exact List.mem_concat_self
  · exact version?_eq_none_iff.2 (.inl hmark)

/-- What a name encodes. A version is read off it exactly if the name is that of some addon at this
version, and then both are determined; every addon and every three numbers make up such a name.
A name is refused exactly if it has no mark, no addon before the last mark or a flawed text behind
it. So every name with a blank behind the last mark, or at its end, is refused, while blanks before
the mark belong to the addon. -/
theorem encoded_version (name : String) :
    (∀ v, version? name = some v ↔ ∃ addon, Encodes name addon v) ∧
    (∀ addon addon' v v', Encodes name addon v ∧ Encodes name addon' v' →
      addon = addon' ∧ v = v') ∧
    (∀ addon major minor patch, addon ≠ "" →
      version? (addon ++ ".v" ++ (SemVer.ofNumbers major minor patch).numbersText) =
        some (SemVer.ofNumbers major minor patch)) ∧
    (version? name = none ↔ ¬ ['.', 'v'] <:+: name.toList ∨
      ∃ addon version, Parts name addon version ∧ (addon = "" ∨ SemVer.Flaw version.toList)) ∧
    (∀ addon version c, Parts name addon version ∧ c ∈ version.toList ∧ Text.isBlank c = true →
      version? name = none) ∧
    (∀ c, Text.isBlank c = true → version? (name.push c) = none) := by
  refine ⟨fun v => version?_eq_some_iff_encodes, fun addon addon' v v' h => h.1.unique h.2, ?_,
    version?_eq_none_iff, ?_, fun c => version?_push⟩
  · intro addon major minor patch haddon
    exact version?_eq_some_iff_encodes.2 ⟨addon, haddon, rfl, rfl⟩
  · rintro addon version c ⟨hparts, hmem, hblank⟩
    exact version?_of_blank hparts hmem hblank

/-- The name of an addon may look like the name of an image set. -/
example : version? "a.v1.2.3-rc.v.v0.10.0" = some (.ofNumbers 0 10 0) := by decide +kernel

end AddonLint.ImageSetName
