import AddonLint.Decimal.Numeral
import Mathlib.Tactic.Common

/-!
# Decimal numerals

A reader takes the longest run of characters of a kind, so what follows does not start with
another one. A number has one decimal text: its digits without a zero in front. Reading a run
of digits gives back the number whose text it is, and a run that is no such text either starts
with a superfluous zero or is no number at all. Where zeros and a plus sign are let pass, a number
has these further texts and no others.
-/
namespace AddonLint.Text

/-- The longest run of characters of a kind at the front, and what follows it. -/
theorem run_iff {p : Char → Bool} {cs run rest : List Char} :
    cs.takeWhile p = run ∧ cs.dropWhile p = rest ↔
      cs = run ++ rest ∧ (∀ c ∈ run, p c = true) ∧ ∀ c ∈ rest.head?, p c = false := by
  constructor
  · rintro ⟨rfl, rfl⟩
    refine ⟨List.takeWhile_append_dropWhile.symm, List.all_eq_true.mp List.all_takeWhile, ?_⟩
    intro c hc
    have h := List.head?_dropWhile_not p cs
    rw [Option.mem_def.mp hc] at h
    exact h
  · rintro ⟨rfl, hrun, hrest⟩
    rw [List.takeWhile_append_of_pos hrun, List.dropWhile_append_of_pos hrun]
    cases rest with
    | nil => exact ⟨List.append_nil run, rfl⟩
    | cons c rest =>
      have hc : ¬p c = true := Bool.eq_false_iff.mp (hrest c rfl)
      rw [List.takeWhile_cons_of_neg hc, List.dropWhile_cons_of_neg hc, List.append_nil]
      exact ⟨rfl, rfl⟩

end AddonLint.Text

namespace AddonLint.Numeral

theorem isDigit_eq : isDigit = Char.isDigit := by
  funext c
  rw [isDigit, Char.isDigit, Bool.eq_iff_iff]
  simp [Char.le_def]

/-- The digits and letters of ASCII. -/
theorem isAlphanum_iff {c : Char} : c.isAlphanum = true ↔
    isDigit c = true ∨ ('a' ≤ c ∧ c ≤ 'z') ∨ ('A' ≤ c ∧ c ≤ 'Z') := by
  have hletters : c.isAlphanum = (decide ('A' ≤ c ∧ c ≤ 'Z') || ('a' ≤ c && c ≤ 'z') ||
      c.isDigit) := rfl
  rw [hletters, isDigit_eq]
  simp only [Bool.or_eq_true, Bool.and_eq_true, decide_eq_true_eq]
  tauto

theorem digitValue?_digitChar : ∀ d < 10, digitValue? d.digitChar = some d := by decide

theorem digitValue?_eq_some_iff {c : Char} {d : Nat} (h : d < 10) :
    digitValue? c = some d ↔ c = d.digitChar := by
  constructor
  · intro hc
    rw [← Char.toNat_inj, Nat.toNat_digitChar_of_lt_ten h]
    unfold digitValue? at hc
    dsimp only at hc
    split at hc
    · have := Option.some.inj hc
      omega
    · split at hc
      · have := Option.some.inj hc
        omega
      · split at hc
        · have := Option.some.inj hc
          omega
        · cases hc
  · rintro rfl
    exact digitValue?_digitChar d h

theorem exists_digitChar {c : Char} (h : c.isDigit = true) : ∃ d < 10, c = d.digitChar := by
  obtain ⟨hlow, hhigh⟩ : 48 ≤ c.toNat ∧ c.toNat ≤ 57 := by
    simpa [Char.isDigit, UInt32.le_iff_toNat_le] using h
  refine ⟨c.toNat - 48, by omega, ?_⟩
  rw [← Char.toNat_inj, Nat.toNat_digitChar_of_lt_ten (by omega)]
  omega

/-- Reading goes on with the next digit. -/
theorem naturalFrom_cons_iff {c : Char} {cs : List Char} {n m : Nat} :
    naturalFrom 10 (c :: cs) n = some m ↔
      ∃ d < 10, c = d.digitChar ∧ naturalFrom 10 cs (10 * n + d) = some m := by
  rw [naturalFrom]
  constructor
  · intro h
    split at h
    next d hd =>
      obtain ⟨hlt, h⟩ := Option.ite_none_right_eq_some.mp h
      exact ⟨d, hlt, (digitValue?_eq_some_iff hlt).mp hd, h⟩
    next => cases h
  · rintro ⟨d, hd, rfl, h⟩
    simp only [digitValue?_digitChar d hd, if_pos hd, h]

theorem toDigits_append_digitChar {n d : Nat} (hn : 0 < n) (hd : d < 10) :
    Nat.toDigits 10 n ++ [d.digitChar] = Nat.toDigits 10 (10 * n + d) := by
  rw [← Nat.toDigits_of_lt_base hd]
  exact Nat.toDigits_append_toDigits (by decide) hn hd

theorem toDigits_inj {n m : Nat} : Nat.toDigits 10 n = Nat.toDigits 10 m ↔ n = m := by
  refine ⟨fun h => ?_, congrArg _⟩
  rw [← Nat.ofDigitChars_ten_toDigits (n := n), h, Nat.ofDigitChars_ten_toDigits]

/-- From a positive number on, reading appends digits to its text. -/
theorem naturalFrom_iff_of_pos {cs : List Char} {n m : Nat} (h : 0 < n) :
    naturalFrom 10 cs n = some m ↔ Nat.toDigits 10 n ++ cs = Nat.toDigits 10 m := by
  induction cs generalizing n with
  | nil => rw [naturalFrom, Option.some.injEq, List.append_nil, toDigits_inj]
  | cons c cs ih =>
    rw [naturalFrom_cons_iff]
    constructor
    · rintro ⟨d, hd, rfl, hrest⟩
      rw [← (ih (by omega)).mp hrest, ← toDigits_append_digitChar h hd, List.append_assoc,
        List.singleton_append]
    · intro heq
      have hmem : c ∈ Nat.toDigits 10 m := heq ▸ List.mem_append_right _ List.mem_cons_self
      obtain ⟨d, hd, rfl⟩ :=
        exists_digitChar (Nat.isDigit_of_mem_toDigits (by decide) (by decide) hmem)
      refine ⟨d, hd, rfl, (ih (by omega)).mpr ?_⟩
      rw [← toDigits_append_digitChar h hd, List.append_assoc, List.singleton_append, heq]

theorem exists_toDigits_eq_cons {m : Nat} (h : 0 < m) :
    ∃ d cs, 0 < d ∧ d < 10 ∧ Nat.toDigits 10 m = d.digitChar :: cs := by
  induction m using Nat.strongRecOn with
  | ind m ih =>
    rw [Nat.toDigits_eq_if (by decide)]
    split
    next hlt => exact ⟨m, [], h, hlt, rfl⟩
    next hge =>
      obtain ⟨d, cs, hpos, hlt, hdigits⟩ := ih (m / 10) (by omega) (by omega)
      exact ⟨d, cs ++ [(m % 10).digitChar], hpos, hlt, by rw [hdigits, List.cons_append]⟩

/-- A run of digits without a superfluous zero in front. -/
theorem natural?_and_head_iff {cs : List Char} {m : Nat} :
    natural? 10 cs = some m ∧ (cs.head? = some '0' → cs = ['0']) ↔ cs = Nat.toDigits 10 m := by
  constructor
  · rintro ⟨h, hzero⟩
    obtain ⟨hne, h⟩ := Option.ite_none_left_eq_some.mp h
    obtain ⟨c, tail, rfl⟩ := List.exists_cons_of_ne_nil hne
    obtain ⟨d, hd, rfl, hrest⟩ := naturalFrom_cons_iff.mp h
    rw [Nat.mul_zero, Nat.zero_add] at hrest
    by_cases hpos : 0 < d
    · rw [← (naturalFrom_iff_of_pos hpos).mp hrest, Nat.toDigits_of_lt_base hd,
        List.singleton_append]
    · obtain rfl := Nat.eq_zero_of_not_pos hpos
      obtain rfl := (List.cons_eq_cons.mp (hzero rfl)).2
      obtain rfl := Option.some.inj hrest
      rfl
  · rintro rfl
    by_cases hpos : 0 < m
    · obtain ⟨d, tail, hdpos, hd, hdigits⟩ := exists_toDigits_eq_cons hpos
      rw [hdigits]
      constructor
      · refine Option.ite_none_left_eq_some.mpr ⟨List.cons_ne_nil _ _, ?_⟩
        refine naturalFrom_cons_iff.mpr ⟨d, hd, rfl, ?_⟩
        rw [Nat.mul_zero, Nat.zero_add, naturalFrom_iff_of_pos hdpos, hdigits,
          Nat.toDigits_of_lt_base hd, List.singleton_append]
      · intro hzero
        have hdzero := Nat.digitChar_eq_zero.mp (Option.some.inj hzero)
        omega
    · obtain rfl := Nat.eq_zero_of_not_pos hpos
      exact ⟨rfl, fun _ => rfl⟩

/-- A zero in front of further digits has no influence. -/
theorem natural?_zero_cons {cs : List Char} (h : cs ≠ []) :
    natural? 10 ('0' :: cs) = natural? 10 cs := by
  rw [natural?, natural?, if_neg (List.cons_ne_nil _ _), if_neg h]
  rfl

/-- Superfluous zeros in front do not change a number. -/
theorem natural?_eq_some_iff {cs : List Char} {m : Nat} :
    natural? 10 cs = some m ↔ ∃ k, cs = List.replicate k '0' ++ Nat.toDigits 10 m := by
  induction cs with
  | nil =>
    refine iff_of_false nofun ?_
    rintro ⟨k, h⟩
    exact Nat.toDigits_ne_nil (List.append_eq_nil_iff.mp h.symm).2
  | cons c tail ih =>
    by_cases hzero : c = '0' ∧ tail ≠ []
    · obtain ⟨rfl, hne⟩ := hzero
      rw [natural?_zero_cons hne, ih]
      constructor
      · rintro ⟨k, rfl⟩
        exact ⟨k + 1, rfl⟩
      · rintro ⟨k, h⟩
        cases k with
        | zero =>
          -- Only the text of zero starts with a zero, and nothing follows there.
          have hhead := (natural?_and_head_iff.mpr h).2 rfl
          exact absurd (List.cons_eq_cons.mp hhead).2 hne
        | succ k => exact ⟨k, (List.cons_eq_cons.mp h).2⟩
    · have hhead : (c :: tail).head? = some '0' → c :: tail = ['0'] := by
        intro h
        obtain rfl : c = '0' := Option.some.inj h
        rw [not_and_not_right.mp hzero rfl]
      rw [← and_iff_left hhead (a := natural? 10 (c :: tail) = some m), natural?_and_head_iff]
      constructor
      · exact fun h => ⟨0, h⟩
      · rintro ⟨k, h⟩
        cases k with
        | zero => exact h
        | succ k =>
          obtain ⟨rfl, rfl⟩ := List.cons_eq_cons.mp h
          have hnil := not_and_not_right.mp hzero rfl
          exact absurd (List.append_eq_nil_iff.mp hnil).2 Nat.toDigits_ne_nil

theorem natural?_plus_cons (cs : List Char) : natural? 10 ('+' :: cs) = none := by
  rw [natural?, if_neg (List.cons_ne_nil _ _)]
  rfl

/-- There is at most one plus sign, and no other sign. -/
theorem unsigned?_eq_some_iff {bound : Nat} {cs : List Char} {m : Nat} :
    unsigned? bound 10 cs = some m ↔
      (natural? 10 cs = some m ∨ ∃ digits, cs = '+' :: digits ∧ natural? 10 digits = some m) ∧
        m ≤ bound := by
  rw [unsigned?.eq_def, Option.filter_eq_some_iff, decide_eq_true_eq]
  refine and_congr_left fun _ => ?_
  split
  · rename_i digits
    rw [natural?_plus_cons, or_iff_right nofun]
    exact ⟨fun h => ⟨digits, rfl, h⟩, fun ⟨_, heq, h⟩ => (List.cons_eq_cons.mp heq).2 ▸ h⟩
  · rename_i hplus
    rw [or_iff_left]
    rintro ⟨digits, heq, -⟩
    exact hplus digits heq

/-- The texts of a number: its digits, perhaps behind zeros and a plus sign. -/
def IsNumeral (s : String) (n : UInt64) : Prop :=
  ∃ k, s.toList = List.replicate k '0' ++ Nat.toDigits 10 n.toNat ∨
    s.toList = '+' :: (List.replicate k '0' ++ Nat.toDigits 10 n.toNat)

theorem unsigned64?_eq_some_iff {s : String} {n : UInt64} :
    unsigned64? s = some n ↔ IsNumeral s n := by
  have hbound : n.toNat ≤ maxUnsigned64 := Nat.le_sub_one_of_lt n.toNat_lt_size
  have hread : unsigned64? s = some n ↔ unsigned? maxUnsigned64 10 s.toList = some n.toNat := by
    rw [unsigned64?, Option.map_eq_some_iff]
    constructor
    · rintro ⟨m, hm, rfl⟩
      have hle : m ≤ maxUnsigned64 := (unsigned?_eq_some_iff.mp hm).2
      rw [hm, UInt64.toNat_ofNat_of_lt' (Nat.lt_of_le_pred (by decide) hle)]
    · exact fun h => ⟨n.toNat, h, UInt64.ofNat_toNat⟩
  rw [hread, unsigned?_eq_some_iff, and_iff_left hbound, IsNumeral, exists_or]
  simp only [natural?_eq_some_iff]
  refine or_congr_right ⟨?_, ?_⟩
  · rintro ⟨_, hs, k, rfl⟩
    exact ⟨k, hs⟩
  · rintro ⟨k, hs⟩
    exact ⟨_, hs, k, rfl⟩

end AddonLint.Numeral
