import AddonLint.Report.Printer
import AddonLint.Text.Quoted
import Mathlib.Algebra.GroupWithZero.Nat
import Mathlib.Data.List.Basic
import Mathlib.Tactic.SplitIfs

/-!
# Line breaks in printed text

The number of line breaks is additive, a quoted text has none, and neither has a
number. Lines that are printed one after the other can be read back from the text
exactly when no line break hides in them; each one that does adds a line.
-/
namespace AddonLint.Text

def breaks (s : String) : Nat := s.toList.count '\n'

/-- The pieces of a text between its line breaks; there is always at least one. -/
def pieces (s : String) : List String := (s.toList.splitOn '\n').map String.ofList

/-- The lines of a text. Nothing behind the last line break is no line. -/
def lines (s : String) : List String :=
  if (pieces s).getLast? = some "" then (pieces s).dropLast else pieces s

@[simp] theorem breaks_append (s t : String) : breaks (s ++ t) = breaks s + breaks t := by
  simp [breaks]

theorem breaks_eq_zero_iff {s : String} : breaks s = 0 ↔ '\n' ∉ s.toList :=
  List.count_eq_zero

/-- For texts that are written out, where it can be decided whether they break a line. -/
@[simp low] theorem breaks_of_not_mem {s : String} (h : '\n' ∉ s.toList) : breaks s = 0 :=
  breaks_eq_zero_iff.2 h

def totalBreaks (texts : List String) : Nat := (texts.map breaks).sum

@[simp] theorem totalBreaks_nil : totalBreaks [] = 0 := rfl

@[simp] theorem totalBreaks_cons (text : String) (rest : List String) :
    totalBreaks (text :: rest) = breaks text + totalBreaks rest := rfl

@[simp] theorem totalBreaks_append (texts more : List String) :
    totalBreaks (texts ++ more) = totalBreaks texts + totalBreaks more := by
  simp [totalBreaks]

theorem totalBreaks_eq_zero_iff {texts : List String} :
    totalBreaks texts = 0 ↔ ∀ text ∈ texts, '\n' ∉ text.toList := by
  rw [totalBreaks, List.sum_eq_zero_iff_forall_eq_nat, List.forall_mem_map]
  exact forall₂_congr fun text _ => breaks_eq_zero_iff

/-! ### Texts without line breaks -/

theorem hexDigit_ne_break : ∀ n < 16, hexDigit n ≠ '\n' := by decide

theorem hexDigits_ne_break (n : Nat) : '\n' ∉ hexDigits n := by
  fun_induction hexDigits n with
  | case1 n h => simpa using (hexDigit_ne_break n h).symm
  | case2 n h ih =>
    have hlast := (hexDigit_ne_break (n % 16) (Nat.mod_lt n (by decide))).symm
    simp [ih, hlast]

theorem codePointEscape_ne_break (c : Char) : '\n' ∉ codePointEscape c := by
  simp [codePointEscape, hexDigits_ne_break]

theorem escapeInText_ne_break (c : Char) : '\n' ∉ escapeInText c := by
  unfold escapeInText escapeCommon
  split_ifs with hquote hnull htab hreturn hbreak hbackslash hplain
  · decide
  · decide
  · decide
  · decide
  · decide
  · decide
  · exact fun h => hbreak (List.mem_singleton.1 h).symm
  · exact codePointEscape_ne_break c

/-- A quoted text stays on its line. -/
@[simp] theorem breaks_quoted (s : String) : breaks (quoted s) = 0 := by
  refine breaks_of_not_mem ?_
  simp [quoted, escapeInText_ne_break]

@[simp] theorem breaks_repr (n : Nat) : breaks n.repr = 0 := by
  refine breaks_of_not_mem fun h => ?_
  rw [Nat.toList_repr] at h
  exact absurd (Nat.isDigit_of_mem_toDigits (by decide) (by decide) h) (by decide)

/-- A separator without line breaks adds none to the texts it joins. -/
@[simp] theorem breaks_intercalate {sep : String} (hsep : breaks sep = 0) (texts : List String) :
    breaks (String.intercalate sep texts) = totalBreaks texts := by
  induction texts with
  | nil => rfl
  | cons text rest ih =>
    cases rest with
    | nil => simp
    | cons next rest =>
      rw [String.intercalate_cons_cons, breaks_append, breaks_append, hsep, ih]
      rfl

/-! ### Cutting text into lines -/

theorem length_splitOn (sep : Char) (cs : List Char) :
    (cs.splitOn sep).length = cs.count sep + 1 := by
  induction cs with
  | nil => rfl
  | cons c cs ih =>
    rw [List.splitOn_cons_eq_if_modifyHead, List.count_cons]
    split
    · rw [List.length_cons, ih]
    · rw [List.length_modifyHead, ih, Nat.add_zero]

theorem length_pieces (s : String) : (pieces s).length = breaks s + 1 := by
  rw [pieces, List.length_map, length_splitOn, breaks]

/-- Without a line break there is one piece, the text itself. -/
theorem pieces_of_breaks {s : String} (h : breaks s = 0) : pieces s = [s] := by
  rw [pieces, List.splitOn_eq_singleton (breaks_eq_zero_iff.1 h), List.map_singleton,
    String.ofList_toList]

theorem pieces_append_break (s t : String) : pieces (s ++ "\n" ++ t) = pieces s ++ pieces t := by
  have hcs : (s ++ "\n" ++ t).toList = s.toList ++ '\n' :: t.toList := by simp
  rw [pieces, hcs, List.splitOn_append_cons_self, List.map_append]
  rfl

theorem pieces_joinLines (ls : List String) :
    pieces (Report.joinLines ls) = ls.flatMap pieces ++ [""] := by
  induction ls with
  | nil => rfl
  | cons l ls ih =>
    have hjoin : Report.joinLines (l :: ls) = l ++ "\n" ++ Report.joinLines ls := by
      simp [Report.joinLines]
    rw [hjoin, pieces_append_break, ih, List.flatMap_cons, List.append_assoc]

/-- A line with line breaks of its own is shown as several lines. -/
theorem lines_joinLines (ls : List String) : lines (Report.joinLines ls) = ls.flatMap pieces := by
  rw [lines, pieces_joinLines, List.getLast?_concat, if_pos rfl, List.dropLast_concat]

/-- Printed lines are as many as were given, and one more for each line break in them. -/
theorem length_lines_joinLines (ls : List String) :
    (lines (Report.joinLines ls)).length = ls.length + totalBreaks ls := by
  rw [lines_joinLines]
  induction ls with
  | nil => rfl
  | cons l ls ih =>
    rw [List.flatMap_cons, List.length_append, ih, length_pieces, List.length_cons,
      totalBreaks_cons]
    omega

/-- Printed lines can be read back exactly when none of them has a line break. -/
theorem lines_joinLines_eq_iff (ls : List String) :
    lines (Report.joinLines ls) = ls ↔ totalBreaks ls = 0 := by
  constructor
  · intro h
    have hlength := length_lines_joinLines ls
    rw [h] at hlength
    omega
  · intro h
    have hpieces : ∀ l ∈ ls, pieces l = [l] := fun l hl =>
      pieces_of_breaks (breaks_eq_zero_iff.2 (totalBreaks_eq_zero_iff.1 h l hl))
    rw [lines_joinLines, List.flatMap_congr hpieces, List.flatMap_singleton']

end AddonLint.Text
