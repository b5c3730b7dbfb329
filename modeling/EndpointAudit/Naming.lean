import EndpointAudit.Text.Case
import EndpointAudit.Text.Split

/-!
# Type names

A type name has its packages separated by dots (or by slashes in its internal form) and its
enclosing classes by dollar signs.
-/

namespace EndpointAudit.Naming

def dotted (typeName : String) : String :=
  Text.replaceChar '/' '.' typeName

/-- The last segment of a type name, without packages and enclosing classes. -/
def simpleName (typeName : String) : String :=
  Text.afterLast '$' (Text.afterLast '.' (dotted typeName))

/-- Whether a character is a small ASCII letter or a digit. -/
def isWordChar (c : Char) : Bool :=
  (0x61 ≤ c.toNat && c.toNat ≤ 0x7A) || (0x30 ≤ c.toNat && c.toNat ≤ 0x39)

/-- A text in small letters without separators, so that different spellings of a compound word
compare equal. -/
def squash (text : String) : String :=
  String.ofList ((Text.lower text).toList.filter isWordChar)

end EndpointAudit.Naming
