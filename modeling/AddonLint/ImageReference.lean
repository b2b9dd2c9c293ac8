import AddonLint.Decimal.Numeral

/-!
# References to container images

Two forms of references that the rules know: an image in a repository of quay.io with an optional
tag or digest, and an index image of the addon organisation. A reference also names a directory of
the cache of unpacked index images.
-/
namespace AddonLint.ImageReference

def isLower (c : Char) : Bool := 'a' ≤ c && c ≤ 'z'

def isUpper (c : Char) : Bool := 'A' ≤ c && c ≤ 'Z'

/-- The first character of an organisation or a repository. -/
def startsName (c : Char) : Bool := isLower c || Numeral.isDigit c

/-- A further character of an organisation. -/
def inOrganisation (c : Char) : Bool := startsName c || c == '.' || c == '_' || c == '-'

/-- A further character of a repository, which may have several levels. -/
def inRepository (c : Char) : Bool := inOrganisation c || c == '/'

def startsTag (c : Char) : Bool := isLower c || isUpper c || Numeral.isDigit c || c == '_'

def inTag (c : Char) : Bool := startsTag c || c == '.' || c == '-'

def inDigest (c : Char) : Bool := Numeral.isDigit c || ('a' ≤ c && c ≤ 'f')

/-- A tag has between one and 128 characters. -/
def isTag : List Char → Bool
  | c :: rest => startsTag c && rest.all inTag && rest.length ≤ 127
  | [] => false

/-- A digest has exactly 64 hexadecimal digits. -/
def isDigest (cs : List Char) : Bool := cs.length = 64 && cs.all inDigest

/-- What follows the beginning of a text. -/
def after? : (beginning text : List Char) → Option (List Char)
  | [], cs => some cs
  | _ :: _, [] => none
  | b :: bs, c :: cs => if b = c then after? bs cs else none

/-- Nothing, a tag behind a colon, or a digest behind its mark. -/
def isSuffix (cs : List Char) : Bool :=
  match cs with
  | [] => true
  | ':' :: tag => isTag tag
  | _ =>
    match after? "@sha256:".toList cs with
    | some digest => isDigest digest
    | none => false

def isRepository : List Char → Bool
  | c :: rest => startsName c && isSuffix (rest.dropWhile inRepository)
  | [] => false

def isHosted : List Char → Bool
  | c :: rest =>
    startsName c &&
      match rest.dropWhile inOrganisation with
      | '/' :: repository => isRepository repository
      | _ => false
  | [] => false

/-- Whether a text is `quay.io/<organisation>/<repository>` with an optional tag or digest. -/
def isQuayImage (s : String) : Bool :=
  match after? "quay.io/".toList s.toList with
  | some rest => isHosted rest
  | none => false

/-- How an index image has to begin, as a pattern in error texts. -/
def indexImagePattern : String := "^quay\\.io/osd-addons/[a-z-]+"

/-- Whether a text begins with the addon organisation and a letter or hyphen. -/
def isIndexImage (s : String) : Bool :=
  match after? "quay.io/osd-addons/".toList s.toList with
  | some (c :: _) => isLower c || c == '-'
  | _ => false

/-- A character of a directory name in the cache. -/
def cacheChar (c : Char) : Char := if c = '/' ∨ c = ':' ∨ c = '@' then '_' else c

/-- The directory of an image in the cache: separators become underscores. -/
def cacheName (image : String) : String := String.ofList (image.toList.map cacheChar)

end AddonLint.ImageReference
