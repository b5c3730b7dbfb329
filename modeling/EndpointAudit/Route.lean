import EndpointAudit.Text.Blank
import EndpointAudit.Text.Split

/-!
# Request paths

Paths of endpoints in their normal form, the path patterns of filters, and the shortening of a
path to a given width.
-/

namespace EndpointAudit.Route

/-- A list of characters with every run of slashes reduced to one slash. -/
def collapseSlashes : List Char → List Char
  | [] => []
  | [c] => [c]
  | c :: d :: rest =>
    if c = '/' ∧ d = '/' then collapseSlashes (d :: rest) else c :: collapseSlashes (d :: rest)

def normalizeChars (path : List Char) : List Char :=
  let collapsed := collapseSlashes ('/' :: Text.trim Text.isBlank path)
  if 1 < collapsed.length then Text.dropEnd (· == '/') collapsed else collapsed

/-- The normal form of a path: one slash in front, no doubled slash, none at the end. -/
def normalize (path : String) : String :=
  String.ofList (normalizeChars path.toList)

/-- The pattern that covers every path. -/
def wildcard : String := "*"

/-- The literal of a pattern: what is left without a trailing `/**` or `/*`. -/
def patternBase (pattern : String) : String :=
  if Text.endsWith pattern "/**" then orRoot (Text.dropLast 3 pattern)
  else if Text.endsWith pattern "/*" then orRoot (Text.dropLast 2 pattern)
  else pattern
where
  orRoot (base : String) : String := if base = "" then "/" else base

/-- Whether a pattern covers a path. A literal covers itself and everything below it, segment by
segment; the root covers only itself. -/
def covers (pattern path : String) : Bool :=
  if pattern = wildcard then true
  else
    let path := normalize path
    let literal := normalize (patternBase pattern)
    if literal = "/" then path == "/"
    else path == literal || Text.startsWith path (literal ++ "/")

/-- What stands for the segments left out of a shortened path. -/
def ellipsis : String := "..."

/-- The trailing segments that fit behind `head` and the ellipsis, taken from the end while the
whole stays within `width`; `kept` are those already taken. -/
def fittingTail (head : String) (width : Int) : List String → List String → List String
  | [], kept => kept
  | segment :: before, kept =>
    if (Text.join "/" (head :: ellipsis :: segment :: kept)).length > width then kept
    else fittingTail head width before (segment :: kept)

/-- A path shortened to `width` characters: middle segments give way to an ellipsis, so that the
first segment and as many trailing ones as fit stay readable. A path with nothing to leave out is
cut at its end. -/
def shorten (path : String) (width : Int) : String :=
  if path.length ≤ width then path
  else
    let segments := (Text.splitAtChar '/' (Text.trim (· == '/') path.toList)).map String.ofList
    let head := "/" ++ segments.headD ""
    let tail := fittingTail head width segments.tail.reverse []
    if !tail.isEmpty && tail.length < segments.length - 1 then
      Text.join "/" (head :: ellipsis :: tail)
    else String.ofList (Text.takeSigned (width - 3) path.toList) ++ ellipsis

end EndpointAudit.Route
