import AddonLint.SemVer

/-!
# Image set names

The name of an image set is `<addon>.v<MAJOR.MINOR.PATCH>`. The addon part may itself contain the
mark `.v`; the last one counts.
-/
namespace AddonLint.ImageSetName

/-- Characters before and after the last `.v`. -/
def splitAtMark? : List Char → Option (List Char × List Char)
  | [] => none
  | c :: cs =>
    match splitAtMark? cs with
    | some (addon, version) => some (c :: addon, version)
    | none =>
      match c, cs with
      | '.', 'v' :: version => some ([], version)
      | _, _ => none

/-- The version that a name encodes, if the name is well formed. -/
def version? (name : String) : Option SemVer :=
  match splitAtMark? name.toList with
  | some (addon, version) =>
    if addon = [] then none else SemVer.parsePlain? (String.ofList version)
  | none => none

end AddonLint.ImageSetName
