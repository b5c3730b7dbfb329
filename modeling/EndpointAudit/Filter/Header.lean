import EndpointAudit.Text.Case
import EndpointAudit.Trace.Event

/-!
# Header names

Where a filter says which header it reads: in the literal that it hands to the request, or in a
string field whose name suggests it.
-/

namespace EndpointAudit.Filter

/-- The literal handed to the first read of a header. -/
def headerFromTrace : List Event → Option String
  | .constant text :: .call c :: rest =>
    if c.name = "getHeader" then some text else headerFromTrace (.call c :: rest)
  | _ :: rest => headerFromTrace rest
  | [] => none

/-- Parts of a field's name that suggest a header, the most telling first. -/
def headerHints : List String := ["header", "key", "token"]

/-- The value of the first field that has one and whose name suggests a header. -/
def headerFromFields (fields : List (String × String)) : Option String :=
  headerHints.findSome? fun hint =>
    (fields.find? fun (name, value) => Text.contains (Text.lower name) hint && value != "").map
      (·.2)

end EndpointAudit.Filter
