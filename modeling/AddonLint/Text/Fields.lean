import AddonLint.Text.Blank

/-!
# Comma-separated lists

A raw list is cut at its commas, each field loses the blanks around it, and fields that are then
empty do not count.
-/
namespace AddonLint.Text

/-- The pieces between the separators, in order; there is always at least one. -/
def cutAt (sep : Char) : List Char → List (List Char)
  | [] => [[]]
  | c :: cs =>
    match cutAt sep cs with
    | [] => [[]]
    | piece :: pieces => if c = sep then [] :: piece :: pieces else (c :: piece) :: pieces

/-- The trimmed fields of a comma-separated list that are not empty, in order. -/
def fields (raw : String) : List String :=
  (((cutAt ',' raw.toList).map trimChars).filter (· ≠ [])).map String.ofList

end AddonLint.Text
