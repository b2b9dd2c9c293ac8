import AddonLint.Icon.Base64
import AddonLint.Icon.Png
import AddonLint.Rules.Membership

/-!
# The rule on the icon

The icon is a PNG image in base64; line breaks in the text do not count.
-/
namespace AddonLint.Rules

/-- The characters of a text without its line breaks. -/
def withoutBreaks (s : String) : List Char := s.toList.filter fun c => c ≠ '\n' && c ≠ '\r'

def judgeIcon (addon : AddonMetadata) : Verdict :=
  if addon.icon = "" then notFound "icon" addon
  else
    match Base64.decode (withoutBreaks addon.icon) with
    | none =>
      .fail ("`icon` found to be improperly base64 populated under the addon metadata of " ++
        addon.id)
    | some bytes =>
      .check (Png.isImage bytes)
        ("`icon`'s base64 value found to correspond to a non-png data under the addon metadata of "
          ++ addon.id)

/-- The icon is a PNG image in base64. -/
def icon : Rule where
  code := "AM0004"
  name := "icon_base64"
  description := "Ensure that `icon` in the addon metadata is a base64-encoded PNG image"
  runner subject := .verdict (judgeIcon subject.addon)

end AddonLint.Rules
