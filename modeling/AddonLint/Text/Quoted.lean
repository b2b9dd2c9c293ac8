import AddonLint.Text.Printable
import AddonLint.Text.Hex

/-!
# Quoted texts

A quoted text stands between double quotes on one line: quotes and backslashes are escaped, the
common control characters have short escapes, and every other character that is not shown as
itself is written by its code point.
-/
namespace AddonLint.Text

/-- A code point escape such as `\u{7f}`. -/
def codePointEscape (c : Char) : List Char :=
  ['\\', 'u', '\x7b'] ++ hexDigits c.toNat ++ ['\x7d']

/-- The escapes that do not depend on the kind of quote. -/
def escapeCommon (c : Char) : List Char :=
  if c = '\x00' then ['\\', '0']
  else if c = '\t' then ['\\', 't']
  else if c = '\r' then ['\\', 'r']
  else if c = '\n' then ['\\', 'n']
  else if c = '\\' then ['\\', '\\']
  else if isPlain c then [c]
  else codePointEscape c

/-- One character of a text between double quotes. -/
def escapeInText (c : Char) : List Char :=
  if c = '\x22' then ['\\', '\x22'] else escapeCommon c

def escapeInChar (c : Char) : List Char :=
  if c = '\x27' then ['\\', '\x27'] else escapeCommon c

/-- A text between double quotes, without line breaks. -/
def quoted (s : String) : String :=
  String.ofList ('\x22' :: s.toList.flatMap escapeInText ++ ['\x22'])

def quotedChar (c : Char) : String :=
  String.ofList ('\x27' :: escapeInChar c ++ ['\x27'])

end AddonLint.Text
