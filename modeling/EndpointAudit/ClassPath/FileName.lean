import EndpointAudit.Text.Case
import EndpointAudit.Text.Split

/-!
# File names

Relative file names as lists of components. Repeated slashes and components that stay in place
are dropped.
-/

namespace EndpointAudit.FileName

def components (name : String) : List String :=
  (Text.splitOn '/' name).filter fun part => part != "" && part != "."

def isAbsolute (name : String) : Bool := Text.startsWith name "/"

/-- A file name in its shortest spelling. -/
def tidy (name : String) : String :=
  if isAbsolute name then "/" ++ Text.join "/" (components name)
  else if (components name).isEmpty then "."
  else Text.join "/" (components name)

/-- The last component of a file name. -/
def base (name : String) : String := (components name).getLastD ""

/-- The part of a component from its last dot on, if the dot is neither at the start nor at the
end. -/
def suffixOf (component : List Char) : List Char :=
  let ending := (component.reverse.takeWhile (· ≠ '.')).reverse
  if ending.isEmpty || component.length ≤ ending.length + 1 then [] else '.' :: ending

/-- The suffix of a file name in small letters. -/
def suffix (name : String) : String :=
  Text.lower (String.ofList (suffixOf (base name).toList))

/-- The order of two lists of components, compared component by component. -/
def componentsLe : List String → List String → Bool
  | [], _ => true
  | _ :: _, [] => false
  | a :: as, b :: bs => if a = b then componentsLe as bs else decide (a < b)

end EndpointAudit.FileName
