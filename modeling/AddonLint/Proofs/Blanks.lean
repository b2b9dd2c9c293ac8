import AddonLint.Proofs.Numerals
import AddonLint.Text.Blank
import Mathlib.Data.List.DropRight
import Mathlib.Data.List.TakeWhile

/-!
# Texts without the blanks around them

A trimmed text is what is left between two runs of blanks when nothing more can
be taken away at either end. There is exactly one such text, and it is empty only
for a text of blanks.
-/
namespace AddonLint.Text

/-- Nothing but blanks. -/
def Blank (s : String) : Prop := ∀ c ∈ s.toList, isBlank c = true

/-- The second text is the first one without the blanks at its two ends. -/
structure Trims (s t : String) : Prop where
  split : ∃ lead trail, s.toList = lead ++ t.toList ++ trail ∧
    (∀ c ∈ lead, isBlank c = true) ∧ ∀ c ∈ trail, isBlank c = true
  first : ∀ c ∈ t.toList.head?, isBlank c = false
  last : ∀ c ∈ t.toList.getLast?, isBlank c = false

theorem trimEnd_eq_rdropWhile (cs : List Char) : trimEnd cs = cs.rdropWhile isBlank := rfl

/-- Taking blanks off the end of a text without blanks at its front keeps the front. -/
theorem head?_trimEnd {cs : List Char} (h : ∀ c ∈ cs.head?, isBlank c = false) :
    ∀ c ∈ (trimEnd cs).head?, isBlank c = false := by
  intro c hc
  obtain ⟨trail, htrail⟩ := List.rdropWhile_prefix isBlank (l := cs)
  refine h c ?_
  rw [← trimEnd_eq_rdropWhile] at htrail
  rw [← htrail, List.head?_append]
  simp [Option.mem_def.1 hc]

theorem trims_trim (s : String) : Trims s (trim s) := by
  have hfirst : ∀ c ∈ (s.toList.dropWhile isBlank).head?, isBlank c = false := by
    intro c hc
    have h := List.head?_dropWhile_not isBlank s.toList
    rw [Option.mem_def.1 hc] at h
    exact h
  have htrim : (trim s).toList = trimEnd (s.toList.dropWhile isBlank) := by
    rw [trim, trimChars, String.toList_ofList]
  refine ⟨⟨s.toList.takeWhile isBlank, (s.toList.dropWhile isBlank).rtakeWhile isBlank, ?_, ?_, ?_⟩,
    ?_, ?_⟩
  · rw [htrim, trimEnd_eq_rdropWhile, List.append_assoc, List.rdropWhile_append_rtakeWhile,
      List.takeWhile_append_dropWhile]
  · exact fun c hc => List.mem_takeWhile_imp hc
  · exact fun c hc => List.mem_rtakeWhile_imp hc
  · rw [htrim]
    exact head?_trimEnd hfirst
  · rw [htrim, trimEnd_eq_rdropWhile]
    intro c hc
    obtain ⟨hne, hlast⟩ := List.mem_getLast?_eq_getLast hc
    rw [hlast]
    exact Bool.eq_false_iff.2 (List.rdropWhile_last_not isBlank _ hne)

/-- Blanks at the end of a text are taken off up to a last character that is none. -/
theorem trimEnd_append {cs trail : List Char} (htrail : ∀ c ∈ trail, isBlank c = true)
    (hlast : ∀ c ∈ cs.getLast?, isBlank c = false) : trimEnd (cs ++ trail) = cs := by
  have hrev : ∀ c ∈ trail.reverse, isBlank c = true := fun c hc => htrail c (List.mem_reverse.1 hc)
  rw [trimEnd, List.reverse_append, List.dropWhile_append_of_pos hrev]
  cases hcs : cs.reverse with
  | nil => rw [List.reverse_eq_nil_iff.1 hcs]; rfl
  | cons c rest =>
    have hc : isBlank c = false := hlast c (by rw [← List.head?_reverse, hcs]; rfl)
    rw [List.dropWhile_cons_of_neg (by rw [hc]; exact Bool.false_ne_true), ← hcs,
      List.reverse_reverse]

/-- Blanks are not dropped behind a first character that is none. -/
theorem dropWhile_append_of_head? {cs more : List Char} (hne : cs ≠ [])
    (h : ∀ c ∈ cs.head?, isBlank c = false) : (cs ++ more).dropWhile isBlank = cs ++ more := by
  obtain ⟨c, rest, rfl⟩ := List.exists_cons_of_ne_nil hne
  have hc : isBlank c = false := h c rfl
  exact List.dropWhile_cons_of_neg (by rw [hc]; exact Bool.false_ne_true)

theorem trim_of_trims {s t : String} (h : Trims s t) : trim s = t := by
  obtain ⟨⟨lead, trail, hs, hlead, htrail⟩, hfirst, hlast⟩ := h
  suffices hchars : trimChars s.toList = t.toList by
    rw [trim, hchars, String.ofList_toList]
  rw [trimChars, hs, List.append_assoc, List.dropWhile_append_of_pos hlead]
  by_cases ht : t.toList = []
  · -- Nothing but blanks is left, and all of them go at the front.
    rw [ht, List.nil_append, List.dropWhile_eq_nil_iff.2 htrail]
    rfl
  · rw [dropWhile_append_of_head? ht hfirst, trimEnd_append htrail hlast]

/-- Trimming is determined by what it removes: blanks, and all of them at both ends. -/
theorem trim_eq_iff {s t : String} : trim s = t ↔ Trims s t :=
  ⟨fun h => h ▸ trims_trim s, trim_of_trims⟩

/-- What is left has nothing more to be taken away. -/
theorem Trims.self {s t : String} (h : Trims s t) : Trims t t :=
  ⟨⟨[], [], by simp, nofun, nofun⟩, h.first, h.last⟩

theorem Trims.subset {s t : String} (h : Trims s t) : t.toList ⊆ s.toList := by
  obtain ⟨lead, trail, hs, -, -⟩ := h.split
  intro c hc
  rw [hs]
  exact List.mem_append_left _ (List.mem_append_right _ hc)

theorem trim_eq_empty_iff {s : String} : trim s = "" ↔ Blank s := by
  rw [trim_eq_iff]
  constructor
  · rintro ⟨⟨lead, trail, hs, hlead, htrail⟩, -, -⟩ c hc
    rw [hs] at hc
    simp only [String.toList_empty, List.append_nil, List.mem_append] at hc
    exact hc.elim (hlead c) (htrail c)
  · intro h
    exact ⟨⟨s.toList, [], by simp, h, nofun⟩, nofun, nofun⟩

/-- Digits and letters are not blank. -/
theorem not_isBlank_of_isAlphanum {c : Char} (h : c.isAlphanum = true) : isBlank c = false := by
  simp only [Numeral.isAlphanum_iff, Numeral.isDigit, Bool.and_eq_true, decide_eq_true_eq,
    Char.le_def, UInt32.le_iff_toNat_le] at h
  change (48 ≤ c.toNat ∧ c.toNat ≤ 57) ∨ (97 ≤ c.toNat ∧ c.toNat ≤ 122) ∨
    (65 ≤ c.toNat ∧ c.toNat ≤ 90) at h
  have hrange : 48 ≤ c.toNat ∧ c.toNat ≤ 122 := by omega
  simp only [isBlank, Bool.or_eq_false_iff, Bool.and_eq_false_iff, decide_eq_false_iff_not,
    beq_eq_false_iff_ne]
  omega

end AddonLint.Text
