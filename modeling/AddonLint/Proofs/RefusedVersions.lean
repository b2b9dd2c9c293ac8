import AddonLint.Proofs.PlainVersions

/-!
# What is refused as a plain version

A text is either the text of a plain version or has one of five flaws, and never both. So what a
request for a version or the name of an image set may be is known from both sides: by what is read
from it, and by what is wrong with it.
-/
namespace AddonLint

namespace Numeral

theorem exists_naturalFrom {cs : List Char} (h : ∀ c ∈ cs, c.isDigit = true) (n : Nat) :
    ∃ m, naturalFrom 10 cs n = some m := by
  induction cs generalizing n with
  | nil => exact ⟨n, rfl⟩
  | cons c cs ih =>
    obtain ⟨hc, hcs⟩ := List.forall_mem_cons.1 h
    obtain ⟨d, hd, rfl⟩ := exists_digitChar hc
    obtain ⟨m, hm⟩ := ih hcs (10 * n + d)
    exact ⟨m, naturalFrom_cons_iff.2 ⟨d, hd, rfl, hm⟩⟩

/-- The digits of a number: at least one, and no superfluous zero in front. -/
theorem exists_eq_toDigits_iff {cs : List Char} :
    (∃ n, cs = Nat.toDigits 10 n) ↔
      cs ≠ [] ∧ (∀ c ∈ cs, c.isDigit = true) ∧ (cs.head? = some '0' → cs = ['0']) := by
  constructor
  · rintro ⟨n, rfl⟩
    exact ⟨Nat.toDigits_ne_nil,
      fun c hc => Nat.isDigit_of_mem_toDigits (by decide) (by decide) hc,
      (natural?_and_head_iff.2 rfl).2⟩
  · rintro ⟨hne, hdigits, hzero⟩
    obtain ⟨m, hm⟩ := exists_naturalFrom hdigits 0
    exact ⟨m, natural?_and_head_iff.1 ⟨(if_neg hne).trans hm, hzero⟩⟩

end Numeral

namespace SemVer

/-! ### The text of a plain version -/

theorem text_of_isPlain {v : SemVer} (h : v.isPlain = true) : v.text = v.numbersText := by
  simp only [isPlain, Bool.and_eq_true] at h
  rw [text, if_pos h.1, if_pos h.2, String.append_empty, String.append_empty]

theorem toList_numbersText (v : SemVer) :
    v.numbersText.toList = ['.'].intercalate
      [Nat.toDigits 10 v.major.toNat, Nat.toDigits 10 v.minor.toNat,
        Nat.toDigits 10 v.patch.toNat] := by
  simp [numbersText, Nat.toList_repr, List.intercalate]

theorem point_not_mem_toDigits (n : Nat) : '.' ∉ Nat.toDigits 10 n := fun h =>
  absurd (Nat.isDigit_of_mem_toDigits (by decide) (by decide) h) (by decide)

/-- The points cut the text of a plain version into its three numbers. -/
theorem splitOn_numbersText (v : SemVer) :
    v.numbersText.toList.splitOn '.' =
      [Nat.toDigits 10 v.major.toNat, Nat.toDigits 10 v.minor.toNat,
        Nat.toDigits 10 v.patch.toNat] := by
  rw [toList_numbersText]
  refine List.splitOn_intercalate '.' ?_ (List.cons_ne_nil _ _)
  simp only [List.forall_mem_cons]
  exact ⟨point_not_mem_toDigits _, point_not_mem_toDigits _, point_not_mem_toDigits _, nofun⟩

/-! ### Flaws -/

/-- What is wrong with a text that should be three numbers with points between them. -/
inductive Flaw (text : List Char) : Prop where
  /-- There are fewer or more than three parts. -/
  | count (length : (text.splitOn '.').length ≠ 3)
  /-- Nothing stands where a number should. -/
  | missing (mem : [] ∈ text.splitOn '.')
  /-- Something other than digits and points: a sign, a blank, a further part behind a mark. -/
  | foreign {c : Char} (mem : c ∈ text) (digit : c.isDigit = false) (point : c ≠ '.')
  /-- A superfluous zero stands in front of a number. -/
  | leadingZero {rest : List Char} (mem : '0' :: rest ∈ text.splitOn '.') (more : rest ≠ [])
  /-- A number does not fit 64 bits. -/
  | tooLarge {n : Nat} (mem : Nat.toDigits 10 n ∈ text.splitOn '.') (large : UInt64.size ≤ n)

/-- The text of a plain version has no flaw. -/
theorem not_flaw_numbersText (v : SemVer) : ¬ Flaw v.numbersText.toList := by
  have hpieces : ∀ piece ∈ v.numbersText.toList.splitOn '.',
      ∃ n : UInt64, piece = Nat.toDigits 10 n.toNat := by
    rw [splitOn_numbersText]
    simp only [List.forall_mem_cons]
    exact ⟨⟨_, rfl⟩, ⟨_, rfl⟩, ⟨_, rfl⟩, nofun⟩
  intro h
  cases h with
  | count length =>
    rw [splitOn_numbersText] at length
    exact length rfl
  | missing mem =>
    obtain ⟨n, hn⟩ := hpieces _ mem
    exact Nat.toDigits_ne_nil hn.symm
  | foreign mem digit point =>
    obtain ⟨piece, hpiece, hc⟩ := Text.exists_mem_piece_iff.2 ⟨mem, point⟩
    obtain ⟨n, rfl⟩ := hpieces piece hpiece
    have hdigit := Nat.isDigit_of_mem_toDigits (by decide) (by decide) hc
    exact Bool.false_ne_true (digit.symm.trans hdigit)
  | leadingZero mem more =>
    obtain ⟨n, hn⟩ := hpieces _ mem
    have hzero := (Numeral.natural?_and_head_iff.2 hn).2 rfl
    exact more (List.cons_eq_cons.1 hzero).2
  | tooLarge mem large =>
    obtain ⟨n, hn⟩ := hpieces _ mem
    rw [Numeral.toDigits_inj.1 hn] at large
    exact absurd n.toNat_lt (Nat.not_lt.2 large)

/-- A part without a flaw is a number of 64 bits. -/
theorem exists_number {text piece : List Char} (h : ¬ Flaw text)
    (hpiece : piece ∈ text.splitOn '.') : ∃ n : UInt64, piece = Nat.toDigits 10 n.toNat := by
  obtain ⟨m, rfl⟩ : ∃ m, piece = Nat.toDigits 10 m := by
    refine Numeral.exists_eq_toDigits_iff.2 ⟨?_, fun c hc => ?_, fun hhead => ?_⟩
    · rintro rfl
      exact h (.missing hpiece)
    · obtain ⟨hmem, hpoint⟩ := Text.exists_mem_piece_iff.1 ⟨piece, hpiece, hc⟩
      by_contra hdigit
      exact h (.foreign hmem (Bool.eq_false_iff.2 hdigit) hpoint)
    · obtain ⟨rest, rfl⟩ := List.head?_eq_some_iff.1 hhead
      by_contra hmore
      exact h (.leadingZero hpiece fun hnil => hmore (by rw [hnil]))
  have hm : m < UInt64.size := Nat.not_le.1 fun hlarge => h (.tooLarge hpiece hlarge)
  exact ⟨UInt64.ofNat m, by rw [UInt64.toNat_ofNat_of_lt' hm]⟩

/-- A text is that of a plain version exactly if it has no flaw. -/
theorem exists_isPlain_iff {s : String} :
    (∃ v : SemVer, v.isPlain = true ∧ s = v.numbersText) ↔ ¬ Flaw s.toList := by
  constructor
  · rintro ⟨v, -, rfl⟩
    exact not_flaw_numbersText v
  · intro h
    have hlength : (s.toList.splitOn '.').length = 3 := by
      by_contra hcount
      exact h (.count hcount)
    obtain ⟨a, b, c, hpieces⟩ := List.length_eq_three.1 hlength
    have hnumber : ∀ piece ∈ [a, b, c], ∃ n : UInt64, piece = Nat.toDigits 10 n.toNat :=
      fun piece hpiece => exists_number h (hpieces ▸ hpiece)
    obtain ⟨⟨major, rfl⟩, ⟨minor, rfl⟩, ⟨patch, rfl⟩, -⟩ := by
      simpa only [List.forall_mem_cons] using hnumber
    have hjoin : ['.'].intercalate (s.toList.splitOn '.') = s.toList := List.intercalate_splitOn '.'
    refine ⟨ofNumbers major minor patch, rfl, ?_⟩
    rw [← String.toList_inj, toList_numbersText, ← hjoin, hpieces]
    rfl

theorem parsePlain?_eq_some_iff_numbersText {s : String} {v : SemVer} :
    parsePlain? s = some v ↔ v.isPlain = true ∧ s = v.numbersText := by
  rw [parsePlain?_eq_some_iff]
  exact and_congr_right fun h => by rw [text_of_isPlain h]

theorem parsePlain?_eq_none_iff {s : String} : parsePlain? s = none ↔ Flaw s.toList := by
  rw [← not_iff_not, ← exists_isPlain_iff, ← ne_eq, Option.ne_none_iff_exists']
  exact exists_congr fun v => parsePlain?_eq_some_iff_numbersText

end SemVer

namespace VersionRequest

/-! ### Requests -/

/-- What a text asks for, or why it asks for nothing. -/
inductive Reads (s : String) : Except ConfigError VersionRequest → Prop
  | declared : s = "" → Reads s (.ok .declared)
  | latest : s = "latest" → Reads s (.ok .latest)
  | exact {v : SemVer} : v.isPlain = true → s = v.numbersText → Reads s (.ok (.exact v))
  | invalid : s ≠ "" → s ≠ "latest" → SemVer.Flaw s.toList → Reads s (.error (.invalidVersion s))

theorem reads_parse (s : String) : Reads s (parse s) := by
  by_cases hempty : s = ""
  · rw [parse, if_pos hempty]
    exact .declared hempty
  by_cases hlatest : s = "latest"
  · rw [parse, if_neg hempty, if_pos hlatest]
    exact .latest hlatest
  rw [parse, if_neg hempty, if_neg hlatest]
  cases hv : SemVer.parsePlain? s with
  | some v =>
    obtain ⟨hplain, hs⟩ := SemVer.parsePlain?_eq_some_iff_numbersText.1 hv
    exact .exact hplain hs
  | none => exact .invalid hempty hlatest (SemVer.parsePlain?_eq_none_iff.1 hv)

/-- The two words that stand for a request are no versions. -/
theorem numbersText_ne_word (v : SemVer) : v.numbersText ≠ "" ∧ v.numbersText ≠ "latest" := by
  have hflaw : ∀ word ∈ ["", "latest"], SemVer.Flaw word.toList := by
    simp only [List.forall_mem_cons]
    exact ⟨.count (by decide), .count (by decide), nofun⟩
  have hne : ∀ word ∈ ["", "latest"], v.numbersText ≠ word := by
    rintro word hword rfl
    exact SemVer.not_flaw_numbersText v (hflaw _ hword)
  exact ⟨hne "" (by decide), hne "latest" (by decide)⟩

/-- What applies of `Reads` is what is read. -/
theorem parse_of_reads {s : String} {result : Except ConfigError VersionRequest}
    (h : Reads s result) : parse s = result := by
  cases h with
  | declared hs => rw [parse, if_pos hs]
  | latest hs =>
    subst hs
    rfl
  | @exact v hplain hs =>
    obtain ⟨hempty, hlatest⟩ := numbersText_ne_word v
    rw [← hs] at hempty hlatest
    rw [parse, if_neg hempty, if_neg hlatest,
      SemVer.parsePlain?_eq_some_iff_numbersText.2 ⟨hplain, hs⟩]
  | invalid hempty hlatest hflaw =>
    rw [parse, if_neg hempty, if_neg hlatest, SemVer.parsePlain?_eq_none_iff.2 hflaw]

/-- What is read from a text is all that the description allows. -/
theorem parse_eq_iff {s : String} {result : Except ConfigError VersionRequest} :
    parse s = result ↔ Reads s result :=
  ⟨fun h => h ▸ reads_parse s, parse_of_reads⟩

/-- Every request but the one without a text reads as itself, if any text reads as it. -/
theorem parse_text {s : String} {request : VersionRequest} (h : parse s = .ok request)
    (hne : request ≠ .declared) : request.text = s ∧ parse request.text = .ok request := by
  have htext := eq_text_of_parse h hne
  exact ⟨htext.symm, htext ▸ h⟩

/-- The text that stands for the declared version is never read as that request. -/
theorem ne_declared_of_parse_text {request : VersionRequest}
    (h : parse request.text = .ok request) : request ≠ .declared := by
  rintro rfl
  cases parse_eq_iff.1 h with
  | declared hs => exact absurd hs (by decide)

/-- A request is nothing, the word `latest` or the text of a plain version, and no text is two of
these. Any other text is refused and named as it stands, and it has a flaw as a version. Reading
and writing undo each other, except that a request without a version has no text of its own. -/
theorem parse_languages (s : String) :
    (parse s = .ok .declared ↔ s = "") ∧
    (parse s = .ok .latest ↔ s = "latest") ∧
    (∀ v, parse s = .ok (.exact v) ↔ v.isPlain = true ∧ s = v.numbersText) ∧
    (∀ e, parse s = .error e ↔
      e = .invalidVersion s ∧ s ≠ "" ∧ s ≠ "latest" ∧ SemVer.Flaw s.toList) ∧
    (∀ v : SemVer, v.numbersText ≠ "" ∧ v.numbersText ≠ "latest" ∧
      ¬ SemVer.Flaw v.numbersText.toList) ∧
    (∀ request, request ≠ .declared ∧ parse s = .ok request ↔
      request.text = s ∧ parse request.text = .ok request) ∧
    (∀ request, request ≠ .declared ∧ (∃ raw, parse raw = .ok request) ↔
      parse request.text = .ok request) := by
  refine ⟨?_, ?_, fun v => ?_, fun e => ?_, fun v => ?_, fun request => ⟨?_, ?_⟩,
    fun request => ⟨?_, ?_⟩⟩
  · rw [parse_eq_iff]
    exact ⟨fun h => by cases h; assumption, .declared⟩
  · rw [parse_eq_iff]
    exact ⟨fun h => by cases h; assumption, .latest⟩
  · rw [parse_eq_iff]
    constructor
    · intro h
      cases h with
      | exact hplain hs => exact ⟨hplain, hs⟩
    · exact fun ⟨hplain, hs⟩ => .exact hplain hs
  · rw [parse_eq_iff]
    constructor
    · intro h
      cases h with
      | invalid hempty hlatest hflaw => exact ⟨rfl, hempty, hlatest, hflaw⟩
    · rintro ⟨rfl, hempty, hlatest, hflaw⟩
      exact .invalid hempty hlatest hflaw
  · obtain ⟨hempty, hlatest⟩ := numbersText_ne_word v
    exact ⟨hempty, hlatest, SemVer.not_flaw_numbersText v⟩
  · exact fun ⟨hne, h⟩ => parse_text h hne
  · rintro ⟨rfl, h⟩
    exact ⟨ne_declared_of_parse_text h, h⟩
  · exact fun ⟨hne, raw, h⟩ => (parse_text h hne).2
  · exact fun h => ⟨ne_declared_of_parse_text h, request.text, h⟩

/-- The greatest number of 64 bits can be asked for, the next one cannot. -/
example :
    (parse "18446744073709551615.0.0").toOption =
      some (.exact (.ofNumbers 18446744073709551615 0 0)) ∧
    (parse "18446744073709551616.0.0").toOption = none := by decide +kernel

end VersionRequest

end AddonLint
