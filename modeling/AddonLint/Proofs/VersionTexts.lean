import AddonLint.Proofs.Fallible
import AddonLint.Proofs.FieldLists
import AddonLint.Proofs.Numerals
import AddonLint.SemVer

/-!
# Texts of versions

A text is a version exactly when it is the text of a well-formed one: three numbers in decimal
with points between them, an optional pre-release part behind a hyphen, and optional build
metadata behind a plus sign. So reading and writing undo each other, and a text stands for one
version at most.
-/
namespace AddonLint.SemVer

open Fallible

/-! ### The three numbers -/

/-- A run of digits that is the text of a number of 64 bits. -/
theorem natural?_filter_eq_some_iff {cs : List Char} {m : Nat} :
    (Numeral.natural? 10 cs).filter (· ≤ Numeral.maxUnsigned64) = some m ↔
      Numeral.natural? 10 cs = some m ∧ m < UInt64.size := by
  rw [Option.filter_eq_some_iff, decide_eq_true_eq, Numeral.maxUnsigned64]
  have hsize : 0 < UInt64.size := by decide
  exact and_congr_right fun _ => by omega

/-- A number is read to its last digit and without superfluous zeros. -/
theorem number_eq_ok_iff {part : Part} {cs rest : List Char} {n : UInt64} :
    number part cs = .ok (n, rest) ↔
      cs = Nat.toDigits 10 n.toNat ++ rest ∧ ∀ c ∈ rest.head?, c.isDigit = false := by
  constructor
  · intro h
    rw [number] at h
    split at h
    next => split at h <;> cases h
    next d more hdigits =>
      split_ifs at h with hzero
      split at h
      next m hm =>
        obtain ⟨hnatural, hlt⟩ := natural?_filter_eq_some_iff.mp hm
        have hhead : (cs.takeWhile Numeral.isDigit).head? = some '0' →
            cs.takeWhile Numeral.isDigit = ['0'] := by
          rw [hdigits]
          intro hd
          have hd := Option.some.inj hd
          rw [hd, Decidable.not_not.mp (not_and.mp hzero hd)]
        have htext := Numeral.natural?_and_head_iff.mp ⟨hnatural, hhead⟩
        obtain ⟨rfl, rfl⟩ := Prod.mk.inj (Except.ok.inj h)
        obtain ⟨hcs, -, hrest⟩ := Text.run_iff.mp ⟨htext, rfl⟩
        rw [UInt64.toNat_ofNat_of_lt' hlt]
        exact ⟨hcs, Numeral.isDigit_eq ▸ hrest⟩
      next => cases h
  · rintro ⟨rfl, hrest⟩
    have hdigits : ∀ c ∈ Nat.toDigits 10 n.toNat, Numeral.isDigit c = true := fun c hc =>
      Numeral.isDigit_eq ▸ Nat.isDigit_of_mem_toDigits (by decide) (by decide) hc
    obtain ⟨htake, hdrop⟩ := Text.run_iff.mpr ⟨rfl, hdigits, Numeral.isDigit_eq ▸ hrest⟩
    obtain ⟨hnatural, hhead⟩ :=
      Numeral.natural?_and_head_iff.mpr (Eq.refl (Nat.toDigits 10 n.toNat))
    have hfilter := natural?_filter_eq_some_iff.mpr ⟨hnatural, n.toNat_lt⟩
    have hne : Nat.toDigits 10 n.toNat ≠ [] := Nat.toDigits_ne_nil
    obtain ⟨d, more, hcons⟩ := List.exists_cons_of_ne_nil hne
    rw [number]
    simp only [htake, hdrop]
    rw [hcons] at hfilter hhead ⊢
    have hzero : ¬(d = '0' ∧ more ≠ []) := fun ⟨hd, hmore⟩ =>
      hmore (List.cons_eq_cons.mp (hhead (congrArg some hd))).2
    simp only [if_neg hzero, hfilter, UInt64.ofNat_toNat]

theorem afterPoint_eq_ok_iff {part : Part} {cs rest : List Char} :
    afterPoint part cs = .ok rest ↔ cs = '.' :: rest := by
  cases cs with
  | nil => simp [afterPoint]
  | cons c cs =>
    rw [afterPoint]
    split
    next h => rw [h, Except.ok.injEq, List.cons_eq_cons, and_iff_right rfl]
    next h => exact iff_of_false nofun fun heq => h (List.cons_eq_cons.mp heq).1

/-! ### Pre-release parts and build metadata -/

/-- Segments of letters, digits and hyphens with points between them. None of them is empty,
and in a pre-release part a segment that is a number has no superfluous zero in front. -/
structure IsIdentifier (part : Part) (text : List Char) : Prop where
  chars : ∀ c ∈ text, c.isAlphanum ∨ c = '-' ∨ c = '.'
  segments_ne_nil : ∀ segment ∈ text.splitOn '.', segment ≠ []
  no_zero : part = .pre → ∀ segment ∈ text.splitOn '.', segment.all Char.isDigit →
    segment.head? = some '0' → segment = ['0']

/-- Zeros in front are a fault in a pre-release part only. -/
theorem segmentFault?_eq_none_iff {part : Part} {segments : List (List Char)} :
    segmentFault? part segments = none ↔
      (∀ segment ∈ segments, segment ≠ []) ∧ (part = .pre → ∀ segment ∈ segments,
        segment.all Char.isDigit → segment.head? = some '0' → segment = ['0']) := by
  induction segments with
  | nil => simp [segmentFault?]
  | cons segment rest ih =>
    have hlength (hne : segment ≠ []) (hhead : segment.head? = some '0') :
        1 < segment.length ↔ segment ≠ ['0'] := by
      obtain ⟨c, tail, rfl⟩ := List.exists_cons_of_ne_nil hne
      obtain rfl := Option.some.inj hhead
      cases tail <;> simp
    rw [segmentFault?, Numeral.isDigit_eq]
    split
    next hnil => simp [hnil]
    next hne =>
      split
      next hzero =>
        obtain ⟨hpart, hall, hlong, hhead⟩ := hzero
        refine iff_of_false nofun fun h => ?_
        exact (hlength hne hhead).mp hlong (h.2 hpart segment List.mem_cons_self hall hhead)
      next hzero =>
        have hfirst (hpart : part = .pre) (hall : segment.all Char.isDigit = true)
            (hhead : segment.head? = some '0') : segment = ['0'] :=
          Decidable.byContradiction fun h =>
            hzero ⟨hpart, hall, (hlength hne hhead).mpr h, hhead⟩
        rw [ih]
        simp only [List.forall_mem_cons]
        constructor
        · exact fun ⟨hrest, hzeros⟩ => ⟨⟨hne, hrest⟩, fun hpart => ⟨hfirst hpart, hzeros hpart⟩⟩
        · exact fun ⟨⟨_, hrest⟩, hzeros⟩ => ⟨hrest, fun hpart => (hzeros hpart).2⟩

theorem identifierChar_iff {c : Char} :
    (isIdentifierChar c || c == '.') = true ↔ c.isAlphanum ∨ c = '-' ∨ c = '.' := by
  simp only [isIdentifierChar, Numeral.isAlphanum_iff, Bool.or_eq_true, Bool.and_eq_true,
    beq_iff_eq, decide_eq_true_eq, or_assoc]

theorem IsIdentifier.ne_nil {part : Part} {text : List Char} (h : IsIdentifier part text) :
    text ≠ [] := by
  rintro rfl
  exact h.segments_ne_nil [] List.mem_cons_self rfl

/-- An identifier ends where no further character of one follows. -/
theorem identifier_eq_ok_iff {part : Part} {cs name rest : List Char} :
    identifier part cs = .ok (name, rest) ↔
      cs = name ++ rest ∧ IsIdentifier part name ∧
        ∀ c ∈ rest.head?, ¬(c.isAlphanum ∨ c = '-' ∨ c = '.') := by
  simp only [identifier, Text.cutAt_eq_splitOn, ← identifierChar_iff, Bool.not_eq_true]
  constructor
  · intro h
    split at h
    next => cases h
    next hfault =>
      obtain ⟨hne, hzero⟩ := segmentFault?_eq_none_iff.mp hfault
      obtain ⟨htake, hdrop⟩ := Prod.mk.inj (Except.ok.inj h)
      obtain ⟨hcs, hname, hrest⟩ := Text.run_iff.mp ⟨htake, hdrop⟩
      rw [htake] at hne hzero
      exact ⟨hcs, ⟨fun c hc => identifierChar_iff.mp (hname c hc), hne, hzero⟩, hrest⟩
  · rintro ⟨hcs, ⟨hchars, hne, hzero⟩, hrest⟩
    have hchars : ∀ c ∈ name, (isIdentifierChar c || c == '.') = true := fun c hc =>
      identifierChar_iff.mpr (hchars c hc)
    obtain ⟨htake, hdrop⟩ := Text.run_iff.mpr ⟨hcs, hchars, hrest⟩
    simp only [htake, hdrop, segmentFault?_eq_none_iff.mpr ⟨hne, hzero⟩]

/-- A text behind its mark; no mark stands before an empty one. -/
def marked (mark : Char) (text : List Char) : List Char := if text = [] then [] else mark :: text

theorem optionalIdentifier_mark_iff {mark : Char} {part : Part} {tail name rest : List Char} :
    (∃ found, optionalIdentifier mark part (mark :: tail) = .ok (found, rest) ∧
      found.getD [] = name) ↔ identifier part tail = .ok (name, rest) := by
  rw [optionalIdentifier, if_pos rfl]
  constructor
  · rintro ⟨found, h, rfl⟩
    obtain ⟨_, hidentifier, heq⟩ := map_eq_ok_iff.mp h
    obtain ⟨rfl, rfl⟩ := Prod.mk.inj heq
    exact hidentifier
  · exact fun h => ⟨some name, map_eq_ok_iff.mpr ⟨(name, rest), h, rfl⟩, rfl⟩

/-- A part is absent exactly if its mark is; behind a mark an identifier has to follow. -/
theorem optionalIdentifier_eq_ok_iff {mark : Char} {part : Part} {cs name rest : List Char} :
    (∃ found, optionalIdentifier mark part cs = .ok (found, rest) ∧ found.getD [] = name) ↔
      cs = marked mark name ++ rest ∧
        (name = [] ∧ rest.head? ≠ some mark ∨
          IsIdentifier part name ∧ ∀ c ∈ rest.head?, ¬(c.isAlphanum ∨ c = '-' ∨ c = '.')) := by
  by_cases hmark : cs.head? = some mark
  · obtain ⟨tail, rfl⟩ := List.head?_eq_some_iff.mp hmark
    rw [optionalIdentifier_mark_iff, identifier_eq_ok_iff]
    constructor
    · rintro ⟨rfl, hname, hrest⟩
      rw [marked, if_neg hname.ne_nil]
      exact ⟨rfl, .inr ⟨hname, hrest⟩⟩
    · rintro ⟨heq, ⟨rfl, hhead⟩ | ⟨hname, hrest⟩⟩
      · exact absurd (congrArg List.head? heq).symm hhead
      · rw [marked, if_neg hname.ne_nil, List.cons_append, List.cons_eq_cons] at heq
        exact ⟨heq.2, hname, hrest⟩
  · have hnone : optionalIdentifier mark part cs = .ok (none, cs) := by
      cases cs with
      | nil => rfl
      | cons c tail => exact if_neg fun h => hmark (congrArg some h)
    rw [hnone]
    constructor
    · rintro ⟨found, h, rfl⟩
      obtain ⟨rfl, rfl⟩ := Prod.mk.inj (Except.ok.inj h)
      exact ⟨rfl, .inl ⟨rfl, hmark⟩⟩
    · rintro ⟨rfl, ⟨rfl, -⟩ | ⟨hname, -⟩⟩
      · exact ⟨none, rfl, rfl⟩
      · rw [marked, if_neg hname.ne_nil] at hmark
        exact absurd rfl hmark

/-! ### Whole versions -/

/-- A version whose two last parts are identifiers or absent. -/
structure IsWellFormed (v : SemVer) : Prop where
  pre : v.pre = "" ∨ IsIdentifier .pre v.pre.toList
  build : v.build = "" ∨ IsIdentifier .build v.build.toList

theorem toList_marked (mark : Char) (text : String) :
    (if text.isEmpty then "" else String.singleton mark ++ text).toList =
      marked mark text.toList := by
  by_cases h : text.isEmpty = true
  · rw [if_pos h, String.isEmpty_iff.mp h]
    rfl
  · have hne : text.toList ≠ [] := fun hnil =>
      h (String.isEmpty_iff.mpr (String.toList_eq_nil_iff.mp hnil))
    rw [if_neg h, marked, if_neg hne, String.toList_append, String.toList_singleton,
      List.singleton_append]

theorem toList_text (v : SemVer) :
    v.text.toList = Nat.toDigits 10 v.major.toNat ++ '.' :: (Nat.toDigits 10 v.minor.toNat ++
      '.' :: (Nat.toDigits 10 v.patch.toNat ++
        (marked '-' v.pre.toList ++ marked '+' v.build.toList))) := by
  rw [← toList_marked, ← toList_marked]
  simp only [text, numbersText, String.toList_append, Nat.toString_eq_repr, Nat.toList_repr,
    List.append_assoc]
  rfl

/-- Reading goes through the parts one after the other and uses up the text. -/
theorem parseChars_eq_ok_iff {cs : List Char} {v : SemVer} :
    parseChars cs = .ok v ↔ ∃ r₁ r₂ r₃ r₄ r₅ r₆,
      number .major cs = .ok (v.major, r₁) ∧ afterPoint .major r₁ = .ok r₂ ∧
        number .minor r₂ = .ok (v.minor, r₃) ∧ afterPoint .minor r₃ = .ok r₄ ∧
          number .patch r₄ = .ok (v.patch, r₅) ∧
            (∃ found, optionalIdentifier '-' .pre r₅ = .ok (found, r₆) ∧
              found.getD [] = v.pre.toList) ∧
            ∃ found, optionalIdentifier '+' .build r₆ = .ok (found, []) ∧
              found.getD [] = v.build.toList := by
  by_cases hnil : cs = []
  · subst hnil
    refine iff_of_false nofun ?_
    rintro ⟨r₁, -, -, -, -, -, hmajor, -⟩
    cases hmajor
  · simp only [parseChars, if_neg hnil, bind_eq_ok_iff, Prod.exists]
    constructor
    · rintro ⟨major, r₁, h₁, r₂, h₂, minor, r₃, h₃, r₄, h₄, patch, r₅, h₅, pre, r₆, h₆, build,
        rest, h₇, h⟩
      cases rest with
      | cons c rest => cases h
      | nil =>
        cases h
        exact ⟨r₁, r₂, r₃, r₄, r₅, r₆, h₁, h₂, h₃, h₄, h₅, ⟨pre, h₆, String.toList_ofList.symm⟩,
          build, h₇, String.toList_ofList.symm⟩
    · rintro ⟨r₁, r₂, r₃, r₄, r₅, r₆, h₁, h₂, h₃, h₄, h₅, ⟨pre, h₆, hpre⟩, build, h₇, hbuild⟩
      refine ⟨_, r₁, h₁, r₂, h₂, _, r₃, h₃, r₄, h₄, _, r₅, h₅, pre, r₆, h₆, build, [], h₇, ?_⟩
      simp only [hpre, hbuild, String.ofList_toList]
      rfl

/-- What may follow an identifier or stand in the place of one. -/
theorem head?_marked_plus (text : List Char) :
    (marked '+' text).head? ≠ some '-' ∧
      ∀ c ∈ (marked '+' text).head?, ¬(c.isAlphanum ∨ c = '-' ∨ c = '.') := by
  rw [marked]
  split
  · exact ⟨nofun, nofun⟩
  · refine ⟨fun h => absurd (Option.some.inj h) (by decide), ?_⟩
    rintro c ⟨⟩
    decide

/-- No digit follows the three numbers. -/
theorem head?_marked_parts (pre build : List Char) :
    ∀ c ∈ (marked '-' pre ++ marked '+' build).head?, c.isDigit = false := by
  intro c hc
  rw [marked, marked] at hc
  split at hc
  · split at hc
    · cases hc
    · cases hc
      decide
  · cases hc
    decide

/-- What may stand behind a mark: nothing, or an identifier. -/
theorem isIdentifier_or_iff {part : Part} {text : String} {P Q : Prop} (hP : P) (hQ : Q) :
    (text.toList = [] ∧ P ∨ IsIdentifier part text.toList ∧ Q) ↔
      text = "" ∨ IsIdentifier part text.toList := by
  rw [and_iff_left hP, and_iff_left hQ, String.toList_eq_nil_iff]

theorem parse_eq_ok_iff {s : String} {v : SemVer} :
    parse s = .ok v ↔ v.IsWellFormed ∧ s = v.text := by
  have hpoint (tail : List Char) : ∀ c ∈ ('.' :: tail).head?, c.isDigit = false := by
    rintro c ⟨⟩
    decide
  have htext : s = v.text ↔ s.toList = v.text.toList := String.toList_inj.symm
  rw [parse, parseChars_eq_ok_iff, htext, toList_text]
  simp only [number_eq_ok_iff, afterPoint_eq_ok_iff, optionalIdentifier_eq_ok_iff]
  constructor
  · rintro ⟨r₁, r₂, r₃, r₄, r₅, r₆, ⟨hcs, -⟩, rfl, ⟨rfl, -⟩, rfl, ⟨rfl, -⟩, ⟨rfl, hpre⟩, rfl,
      hbuild⟩
    rw [List.append_nil] at hcs hpre
    obtain ⟨hmark, hother⟩ := head?_marked_plus v.build.toList
    exact ⟨⟨(isIdentifier_or_iff hmark hother).mp hpre,
      (isIdentifier_or_iff nofun nofun).mp hbuild⟩, hcs⟩
  · rintro ⟨⟨hpre, hbuild⟩, hcs⟩
    obtain ⟨hmark, hother⟩ := head?_marked_plus v.build.toList
    exact ⟨_, _, _, _, _, _, ⟨hcs, hpoint _⟩, rfl, ⟨rfl, hpoint _⟩, rfl,
      ⟨rfl, head?_marked_parts _ _⟩, ⟨rfl, (isIdentifier_or_iff hmark hother).mpr hpre⟩,
      (List.append_nil _).symm, (isIdentifier_or_iff nofun nofun).mpr hbuild⟩

end AddonLint.SemVer
