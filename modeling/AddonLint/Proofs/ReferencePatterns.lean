import AddonLint.ImageReference
import AddonLint.Proofs.Numerals
import Mathlib.Computability.Language

/-!
# Image references as a language

The form of an image on quay.io, written as an expression over sets of texts, and the check
that accepts exactly these texts. The check takes the longest run of characters of a class
where the expression repeats the class. That is no loss: what follows a repetition never
starts with a character of the class.
-/
namespace AddonLint.ImageReference

open Computability

/-! ### Expressions -/

/-- Whether a character lies in one of some ranges. -/
def within (ranges : List (Char × Char)) (c : Char) : Bool :=
  ranges.any fun range => range.1 ≤ c && c ≤ range.2

def literal (s : String) : Language Char := {s.toList}

/-- The texts of one character out of some ranges. -/
def oneOf (ranges : List (Char × Char)) : Language Char := {cs | ∃ c, within ranges c ∧ cs = [c]}

theorem within_nil (c : Char) : within [] c = false := rfl

theorem within_cons (low high c : Char) (ranges : List (Char × Char)) :
    within ((low, high) :: ranges) c = (low ≤ c && c ≤ high || within ranges c) := rfl

theorem within_append (ranges others : List (Char × Char)) (c : Char) :
    within (ranges ++ others) c = (within ranges c || within others c) := List.any_append

/-- A range of one character. -/
theorem le_and_le_self (a c : Char) : (a ≤ c && c ≤ a : Bool) = (c == a) := by
  rw [Bool.eq_iff_iff, Bool.and_eq_true, decide_eq_true_eq, decide_eq_true_eq, beq_iff_eq]
  exact ⟨fun h => Char.le_antisymm h.2 h.1, fun h => h ▸ ⟨Char.le_refl c, Char.le_refl c⟩⟩

variable {ranges : List (Char × Char)} {cs : List Char} {rest : Language Char}

theorem mem_literal_mul {s : String} :
    cs ∈ literal s * rest ↔ ∃ tail ∈ rest, cs = s.toList ++ tail := by
  simp only [Language.mem_mul, literal, eq_comm (b := cs)]
  exact ⟨fun ⟨_, hs, h⟩ => Set.mem_singleton_iff.mp hs ▸ h, fun h => ⟨_, rfl, h⟩⟩

theorem mem_oneOf_mul :
    cs ∈ oneOf ranges * rest ↔ ∃ c tail, within ranges c ∧ tail ∈ rest ∧ cs = c :: tail := by
  rw [Language.mem_mul]
  constructor
  · rintro ⟨_, ⟨c, hc, rfl⟩, tail, htail, rfl⟩
    exact ⟨c, tail, hc, htail, rfl⟩
  · rintro ⟨c, tail, hc, htail, rfl⟩
    exact ⟨[c], ⟨c, hc, rfl⟩, tail, htail, rfl⟩

theorem cons_mem_oneOf_mul {c : Char} :
    c :: cs ∈ oneOf ranges * rest ↔ within ranges c = true ∧ cs ∈ rest := by
  rw [mem_oneOf_mul]
  constructor
  · rintro ⟨_, _, hc, htail, heq⟩
    obtain ⟨rfl, rfl⟩ := List.cons_eq_cons.mp heq
    exact ⟨hc, htail⟩
  · exact fun ⟨hc, htail⟩ => ⟨c, cs, hc, htail, rfl⟩

theorem nil_notMem_oneOf_mul : [] ∉ oneOf ranges * rest := by
  rw [mem_oneOf_mul]
  rintro ⟨_, _, _, _, h⟩
  cases h

theorem mem_oneOf_pow {n : Nat} :
    cs ∈ oneOf ranges ^ n ↔ cs.length = n ∧ cs.all (within ranges) = true := by
  induction n generalizing cs with
  | zero =>
    rw [pow_zero, Language.mem_one, List.length_eq_zero_iff]
    exact ⟨fun h => ⟨h, h ▸ rfl⟩, And.left⟩
  | succ n ih =>
    rw [pow_succ', mem_oneOf_mul]
    constructor
    · rintro ⟨c, tail, hc, htail, rfl⟩
      obtain ⟨hlength, hall⟩ := ih.mp htail
      exact ⟨congrArg Nat.succ hlength, by rw [List.all_cons, hc, hall, Bool.and_self]⟩
    · rintro ⟨hlength, hall⟩
      obtain ⟨c, tail, rfl⟩ := List.exists_cons_of_length_eq_add_one hlength
      obtain ⟨hc, htail⟩ := Bool.and_eq_true_iff.mp hall
      exact ⟨c, tail, hc, ih.mpr ⟨Nat.succ.inj hlength, htail⟩, rfl⟩

/-- Optional characters in a row bound the length of a text and nothing else. -/
theorem mem_optional_pow {n : Nat} :
    cs ∈ (1 + oneOf ranges) ^ n ↔ cs.length ≤ n ∧ cs.all (within ranges) = true := by
  induction n generalizing cs with
  | zero =>
    rw [pow_zero, Language.mem_one, Nat.le_zero, List.length_eq_zero_iff]
    exact ⟨fun h => ⟨h, h ▸ rfl⟩, And.left⟩
  | succ n ih =>
    rw [pow_succ', add_mul, one_mul, Language.mem_add, ih, mem_oneOf_mul]
    constructor
    · rintro (⟨hlength, hall⟩ | ⟨c, tail, hc, htail, rfl⟩)
      · exact ⟨Nat.le_succ_of_le hlength, hall⟩
      · obtain ⟨hlength, hall⟩ := ih.mp htail
        exact ⟨Nat.succ_le_succ hlength, by rw [List.all_cons, hc, hall, Bool.and_self]⟩
    · rintro ⟨hlength, hall⟩
      cases cs with
      | nil => exact .inl ⟨Nat.zero_le n, hall⟩
      | cons c tail =>
        obtain ⟨hc, htail⟩ := Bool.and_eq_true_iff.mp hall
        exact .inr ⟨c, tail, hc, ih.mpr ⟨Nat.le_of_succ_le_succ hlength, htail⟩, rfl⟩

theorem mem_oneOf_kstar : cs ∈ (oneOf ranges)∗ ↔ cs.all (within ranges) = true := by
  simp only [Language.kstar_eq_iSup_pow, Language.mem_iSup, mem_oneOf_pow, exists_eq_left']

/-- After a repetition of a class comes what is behind the longest run of the class. -/
theorem mem_kstar_mul (hrest : ∀ tail ∈ rest, ∀ c ∈ tail.head?, within ranges c = false) :
    cs ∈ (oneOf ranges)∗ * rest ↔ cs.dropWhile (within ranges) ∈ rest := by
  rw [Language.mem_mul]
  constructor
  · rintro ⟨run, hrun, tail, htail, rfl⟩
    have hrun := List.all_eq_true.mp (mem_oneOf_kstar.mp hrun)
    rw [(Text.run_iff.mpr ⟨rfl, hrun, hrest tail htail⟩).2]
    exact htail
  · intro h
    exact ⟨cs.takeWhile (within ranges), mem_oneOf_kstar.mpr List.all_takeWhile, _, h,
      List.takeWhile_append_dropWhile⟩

/-! ### The form of an image -/

/-- Lower-case letters and digits start an organisation or a repository. -/
def nameStart : List (Char × Char) := [('a', 'z'), ('0', '9')]

/-- Lower-case letters, digits, point, underscore and hyphen. -/
def organisationChars : List (Char × Char) := nameStart ++ [('.', '.'), ('_', '_'), ('-', '-')]

/-- The same and the slash. -/
def repositoryChars : List (Char × Char) := organisationChars ++ [('/', '/')]

/-- Letters, digits and the underscore start a tag. -/
def tagStart : List (Char × Char) := [('A', 'Z'), ('a', 'z'), ('0', '9'), ('_', '_')]

/-- The same, the point and the hyphen. -/
def tagChars : List (Char × Char) := tagStart ++ [('.', '.'), ('-', '-')]

def digestChars : List (Char × Char) := [('a', 'f'), ('0', '9')]

/-- Nothing, a tag of up to 128 characters, or a digest of 64 digits. -/
def suffixPattern : Language Char :=
  1 + (literal ":" * (oneOf tagStart * (1 + oneOf tagChars) ^ 127) +
    literal "@sha256:" * oneOf digestChars ^ 64)

/-- The host, an organisation, a repository, and an optional tag or digest. -/
def quayPattern : Language Char :=
  literal "quay.io/" * (oneOf nameStart * ((oneOf organisationChars)∗ * (literal "/" *
    (oneOf nameStart * ((oneOf repositoryChars)∗ * suffixPattern)))))

theorem startsName_eq : startsName = within nameStart := by
  funext c
  simp only [startsName, isLower, Numeral.isDigit, nameStart, within_cons, within_nil,
    Bool.or_false]

theorem inOrganisation_eq : inOrganisation = within organisationChars := by
  funext c
  simp only [inOrganisation, startsName_eq, organisationChars, within_append, within_cons,
    within_nil, le_and_le_self, Bool.or_false]
  ac_rfl

theorem inRepository_eq : inRepository = within repositoryChars := by
  funext c
  simp only [inRepository, inOrganisation_eq, repositoryChars, within_append, within_cons,
    within_nil, le_and_le_self, Bool.or_false]

theorem startsTag_eq : startsTag = within tagStart := by
  funext c
  simp only [startsTag, isLower, isUpper, Numeral.isDigit, tagStart, within_cons, within_nil,
    le_and_le_self, Bool.or_false]
  ac_rfl

theorem inTag_eq : inTag = within tagChars := by
  funext c
  simp only [inTag, startsTag_eq, tagChars, within_append, within_cons,
    within_nil, le_and_le_self, Bool.or_false]
  ac_rfl

theorem inDigest_eq : inDigest = within digestChars := by
  funext c
  simp only [inDigest, Numeral.isDigit, digestChars, within_cons, within_nil, Bool.or_false]
  ac_rfl

theorem after?_eq_some_iff {beginning text tail : List Char} :
    after? beginning text = some tail ↔ text = beginning ++ tail := by
  induction beginning generalizing text with
  | nil => rw [after?, Option.some.injEq, List.nil_append]
  | cons b beginning ih =>
    cases text with
    | nil => simp [after?]
    | cons c text =>
      rw [after?, Option.ite_none_right_eq_some, ih, List.cons_append, List.cons_eq_cons,
        eq_comm (a := b)]

section
variable {beginning text tail : List Char} {P : List Char → Prop}

/-- What follows the beginning is the only text that can follow it. -/
theorem exists_append_iff (h : after? beginning text = some tail) :
    (∃ other, P other ∧ text = beginning ++ other) ↔ P tail := by
  simp only [← after?_eq_some_iff, h, Option.some.injEq, exists_eq_right']

theorem not_exists_append (h : after? beginning text = none) :
    ¬∃ other, P other ∧ text = beginning ++ other := by
  simp only [← after?_eq_some_iff, h, reduceCtorEq, and_false, exists_false, not_false_eq_true]

end

theorem isTag_iff : isTag cs = true ↔ cs ∈ oneOf tagStart * (1 + oneOf tagChars) ^ 127 := by
  cases cs with
  | nil => exact iff_of_false Bool.false_ne_true nil_notMem_oneOf_mul
  | cons c tail =>
    rw [cons_mem_oneOf_mul, mem_optional_pow, isTag, startsTag_eq, inTag_eq, Bool.and_eq_true,
      Bool.and_eq_true, decide_eq_true_eq, and_assoc, and_comm (b := tail.length ≤ 127)]

theorem isDigest_iff : isDigest cs = true ↔ cs ∈ oneOf digestChars ^ 64 := by
  rw [mem_oneOf_pow, isDigest, Bool.and_eq_true, decide_eq_true_eq, inDigest_eq]

theorem isSuffix_iff : isSuffix cs = true ↔ cs ∈ suffixPattern := by
  rw [suffixPattern, Language.mem_add, Language.mem_one, Language.mem_add, mem_literal_mul,
    mem_literal_mul, isSuffix.eq_def]
  split
  next => exact iff_of_true rfl (.inl rfl)
  next tag =>
    rw [isTag_iff]
    constructor
    · exact fun h => .inr (.inl ⟨tag, h, rfl⟩)
    · rintro (h | ⟨tail, htail, heq⟩ | ⟨tail, -, heq⟩)
      · cases h
      · obtain rfl := (List.cons_eq_cons.mp heq).2
        exact htail
      · cases heq
  next hnil hcolon =>
    have hneither : ¬(cs = [] ∨ ∃ tail ∈ oneOf tagStart * (1 + oneOf tagChars) ^ 127,
        cs = ":".toList ++ tail) := by
      rintro (h | ⟨tail, -, h⟩)
      · exact hnil h
      · exact hcolon tail h
    rw [← or_assoc, or_iff_right hneither]
    simp only [← isDigest_iff]
    split
    next digest hafter => rw [exists_append_iff hafter]
    next hafter => exact iff_of_false Bool.false_ne_true (not_exists_append hafter)

/-- No suffix starts with a character of a repository. -/
theorem head_suffix {tail : List Char} (h : tail ∈ suffixPattern) :
    ∀ c ∈ tail.head?, within repositoryChars c = false := by
  rw [suffixPattern, Language.mem_add, Language.mem_one, Language.mem_add, mem_literal_mul,
    mem_literal_mul] at h
  obtain rfl | ⟨_, -, rfl⟩ | ⟨_, -, rfl⟩ := h
  · exact fun c hc => (Option.not_mem_none c hc).elim
  · rintro _ ⟨⟩
    decide
  · rintro _ ⟨⟩
    decide

theorem isRepository_iff : isRepository cs = true ↔
    cs ∈ oneOf nameStart * ((oneOf repositoryChars)∗ * suffixPattern) := by
  cases cs with
  | nil => exact iff_of_false Bool.false_ne_true nil_notMem_oneOf_mul
  | cons c tail =>
    rw [cons_mem_oneOf_mul, mem_kstar_mul fun _ => head_suffix, ← isSuffix_iff, isRepository,
      Bool.and_eq_true, startsName_eq, inRepository_eq]

/-- The organisation ends at the first slash; the repository may hold further ones. -/
theorem isHosted_iff : isHosted cs = true ↔ cs ∈ oneOf nameStart * ((oneOf organisationChars)∗ *
    (literal "/" * (oneOf nameStart * ((oneOf repositoryChars)∗ * suffixPattern)))) := by
  cases cs with
  | nil => exact iff_of_false Bool.false_ne_true nil_notMem_oneOf_mul
  | cons c tail =>
    have hslash : ∀ tail ∈ literal "/" *
        (oneOf nameStart * ((oneOf repositoryChars)∗ * suffixPattern)),
        ∀ c ∈ tail.head?, within organisationChars c = false := by
      intro tail htail
      obtain ⟨_, -, rfl⟩ := mem_literal_mul.mp htail
      rintro _ ⟨⟩
      decide
    rw [cons_mem_oneOf_mul, mem_kstar_mul hslash, mem_literal_mul, isHosted, Bool.and_eq_true,
      startsName_eq, inOrganisation_eq]
    simp only [← isRepository_iff]
    refine and_congr_right fun _ => ?_
    split
    next repository hdrop =>
      constructor
      · exact fun h => ⟨repository, h, hdrop⟩
      · rintro ⟨_, h, heq⟩
        obtain rfl := (List.cons_eq_cons.mp (hdrop.symm.trans heq)).2
        exact h
    next hother => exact iff_of_false Bool.false_ne_true fun ⟨_, _, heq⟩ => hother _ heq

/-- The recogniser accepts exactly the texts of the pattern, from the first character to the last.
-/
theorem isQuayImage_iff {s : String} : isQuayImage s = true ↔ s.toList ∈ quayPattern := by
  simp only [quayPattern, mem_literal_mul, ← isHosted_iff, isQuayImage]
  split
  next tail hafter => rw [exists_append_iff hafter]
  next hafter => exact iff_of_false Bool.false_ne_true (not_exists_append hafter)

/-- An index image of the addon organisation, with anything behind its first character. -/
theorem isIndexImage_iff {s : String} : isIndexImage s = true ↔
    ∃ c tail, (('a' ≤ c ∧ c ≤ 'z') ∨ c = '-') ∧
      s.toList = "quay.io/osd-addons/".toList ++ c :: tail := by
  have hchar (c : Char) :
      (isLower c || c == '-') = true ↔ (('a' ≤ c ∧ c ≤ 'z') ∨ c = '-') := by
    simp [isLower]
  simp only [← hchar, ← after?_eq_some_iff, isIndexImage]
  split
  next c tail hafter =>
    constructor
    · exact fun h => ⟨c, tail, h, hafter⟩
    · rintro ⟨_, _, h, heq⟩
      obtain ⟨rfl, -⟩ := List.cons_eq_cons.mp (Option.some.inj (hafter.symm.trans heq))
      exact h
  next hother => exact iff_of_false Bool.false_ne_true fun ⟨c, tail, _, h⟩ => hother c tail h

end AddonLint.ImageReference
