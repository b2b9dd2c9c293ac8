import AddonLint.VersionRequest
import AddonLint.Schema.Choice

/-!
# Version requests in JSON values

A request is an object whose `kind` says what is requested and whose `version` holds an exact
version. A list of the two is read as well.
-/
namespace AddonLint.VersionRequest

/-- The kinds of requests. -/
inductive Kind where
  | declared
  | latest
  | exact
  deriving DecidableEq, Repr

namespace Kind

def all : List Kind := [.declared, .latest, .exact]

def name : Kind → String
  | .declared => "default"
  | .latest => "latest"
  | .exact => "exact"

def expected : Kind → String
  | .declared => "unit variant VersionRequest::Default"
  | .latest => "unit variant VersionRequest::Latest"
  | .exact => "semver version"

def ofName? (s : String) : Option Kind := all.find? fun k => k.name = s

def ofJson (value : Json) : Except Fault Kind := value.choice (all.map name) ofName?

end Kind

def expected : String := "adjacently tagged enum VersionRequest"

/-- The request of a kind and the value beside it. -/
def ofContent (kind : Kind) (content : Json) : Except Fault VersionRequest :=
  match kind, content with
  | .declared, .null => .ok .declared
  | .latest, .null => .ok .latest
  | .exact, .str s =>
    match SemVer.parse s with
    | .ok v => .ok (.exact v)
    | .error cause => .error (.badVersion cause)
  | kind, other => .error (.wrongType other.finding kind.expected)

def ofKind : Kind → Except Fault VersionRequest
  | .declared => .ok .declared
  | .latest => .ok .latest
  | .exact => .error (.missingField "version")

def ofJson : Json → Except Fault VersionRequest
  | .obj members =>
    match members.lookup "kind" with
    | none => .error (.missingField "kind")
    | some tag => do
      let kind ← Kind.ofJson tag
      match members.lookup "version" with
      | some content => ofContent kind content
      | none => ofKind kind
  | .arr [] => .error (.wrongLength 0 expected)
  | .arr (tag :: contents) => do
    let kind ← Kind.ofJson tag
    match contents with
    | [] => throw (.wrongLength 1 expected)
    | content :: rest =>
      let request ← ofContent kind content
      if rest = [] then return request
      else throw (Reading.direct.overlong (rest.length + 2) 2)
  | other => .error (.wrongType other.finding expected)

def toJson : VersionRequest → Json
  | .declared => .obj [("kind", .str Kind.declared.name)]
  | .latest => .obj [("kind", .str Kind.latest.name)]
  | .exact v => .obj [("kind", .str Kind.exact.name), ("version", .str v.text)]

end AddonLint.VersionRequest
