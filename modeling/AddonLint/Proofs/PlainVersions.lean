import AddonLint.ImageSetName
import AddonLint.Proofs.VersionTexts
import AddonLint.Proofs.Versions
import AddonLint.VersionRequest

/-!
# Plain versions in requests and names

A plain version is read from its own text and from no other. That text has no `v`, so the name of
an image set that ends in it has its last mark right in front of it, whatever the addon is called.
-/
namespace AddonLint

namespace SemVer

theorem isWellFormed_of_isPlain {v : SemVer} (h : v.isPlain = true) : v.IsWellFormed := by
  simp only [isPlain, Bool.and_eq_true, String.isEmpty_iff] at h
  exact ⟨.inl h.1, .inl h.2⟩

/-- A plain version is read from its own text only. -/
theorem parsePlain?_eq_some_iff {s : String} {v : SemVer} :
    parsePlain? s = some v ↔ v.isPlain = true ∧ s = v.text := by
  unfold parsePlain?
  constructor
  · intro h
    split at h
    · rename_i w hw
      obtain ⟨hplain, heq⟩ := Option.ite_none_right_eq_some.1 h
      obtain rfl := Option.some.inj heq
      exact ⟨hplain, (parse_eq_ok_iff.1 hw).2⟩
    · cases h
  · rintro ⟨hplain, hs⟩
    rw [parse_eq_ok_iff.2 ⟨isWellFormed_of_isPlain hplain, hs⟩]
    exact if_pos hplain

/-- The text of a plain version consists of digits and points. -/
theorem mem_text_of_isPlain {v : SemVer} (h : v.isPlain = true) {c : Char}
    (hc : c ∈ v.text.toList) : c.isDigit = true ∨ c = '.' := by
  have hdigit : ∀ n c, c ∈ Nat.toDigits 10 n → c.isDigit = true := fun n c hc =>
    Nat.isDigit_of_mem_toDigits (by decide) (by decide) hc
  simp only [isPlain, Bool.and_eq_true, String.isEmpty_iff] at h
  rw [toList_text, h.1, h.2] at hc
  simp only [String.toList_empty, marked, if_pos, List.mem_append, List.mem_cons,
    List.not_mem_nil, or_false] at hc
  rcases hc with hc | rfl | hc | rfl | hc
  · exact .inl (hdigit _ c hc)
  · exact .inr rfl
  · exact .inl (hdigit _ c hc)
  · exact .inr rfl
  · exact .inl (hdigit _ c hc)

end SemVer

namespace VersionRequest

/-- Every request but the one for the declared version is read from its own text. -/
theorem eq_text_of_parse {s : String} {request : VersionRequest} (h : parse s = .ok request)
    (hne : request ≠ .declared) : s = request.text := by
  unfold parse at h
  split at h
  · cases h
    exact absurd rfl hne
  · split at h
    · rename_i hlatest
      cases h
      exact hlatest
    · split at h
      · rename_i v hv
        cases h
        exact (SemVer.parsePlain?_eq_some_iff.1 hv).2
      · cases h

end VersionRequest

namespace ImageSetName

theorem eq_append_of_splitAtMark? {cs addon version : List Char}
    (h : splitAtMark? cs = some (addon, version)) : cs = addon ++ '.' :: 'v' :: version := by
  induction cs generalizing addon version with
  | nil => cases h
  | cons c cs ih =>
    unfold splitAtMark? at h
    split at h
    · rename_i addon' version' hrest
      cases h
      rw [ih hrest, List.cons_append]
    · split at h
      · cases h
        rfl
      · cases h

theorem splitAtMark?_of_not_mem {cs : List Char} (h : 'v' ∉ cs) : splitAtMark? cs = none := by
  cases hsplit : splitAtMark? cs with
  | none => rfl
  | some parts =>
    have hcs := eq_append_of_splitAtMark? hsplit
    rw [hcs] at h
    simp at h

/-- A mark is the last one if there is none behind it. -/
theorem splitAtMark?_append {version : List Char} (h : splitAtMark? version = none)
    (addon : List Char) : splitAtMark? (addon ++ '.' :: 'v' :: version) = some (addon, version) := by
  induction addon with
  | nil =>
    have hrest : splitAtMark? ('v' :: version) = none := by
      simp [splitAtMark?, h]
    rw [List.nil_append]
    unfold splitAtMark?
    rw [hrest]
    rfl
  | cons c addon ih =>
    rw [List.cons_append]
    unfold splitAtMark?
    rw [ih]

/-- A name encodes a version if it is the name of some addon at that version. -/
theorem version?_eq_some_iff {name : String} {v : SemVer} :
    version? name = some v ↔
      v.isPlain = true ∧ ∃ addon, addon ≠ "" ∧ name = addon ++ ".v" ++ v.text := by
  constructor
  · intro h
    unfold version? at h
    split at h
    · rename_i addon version hsplit
      obtain ⟨haddon, h⟩ := Option.ite_none_left_eq_some.1 h
      obtain ⟨hplain, hversion⟩ := SemVer.parsePlain?_eq_some_iff.1 h
      refine ⟨hplain, String.ofList addon, fun hempty => ?_, ?_⟩
      · exact haddon (Text.ofList_eq_empty_iff.1 hempty)
      · rw [← String.toList_inj, eq_append_of_splitAtMark? hsplit, ← hversion]
        simp
    · cases h
  · rintro ⟨hplain, addon, haddon, rfl⟩
    have hmark : 'v' ∉ v.text.toList := by
      intro hv
      rcases SemVer.mem_text_of_isPlain hplain hv with h | h
      · exact absurd h (by decide)
      · exact absurd h (by decide)
    have hname : (addon ++ ".v" ++ v.text).toList = addon.toList ++ '.' :: 'v' :: v.text.toList := by
      simp
    unfold version?
    rw [hname, splitAtMark?_append (splitAtMark?_of_not_mem hmark)]
    dsimp only
    rw [if_neg (Text.toList_ne_nil haddon), String.ofList_toList]
    exact SemVer.parsePlain?_eq_some_iff.2 ⟨hplain, rfl⟩

end ImageSetName

end AddonLint
