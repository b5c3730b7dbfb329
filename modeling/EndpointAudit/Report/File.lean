import EndpointAudit.Bytes.Basic
import EndpointAudit.ClassPath.FileName
import EndpointAudit.Json.Printer
import EndpointAudit.Json.Reader
import EndpointAudit.Report.Decode
import EndpointAudit.Report.Encode
import EndpointAudit.Yaml.Printer
import EndpointAudit.Yaml.Reader

/-!
# Report files

Reports are kept in files of two formats, which are told apart by the suffix of the name.
-/

namespace EndpointAudit

inductive FileFormat where
  | json
  | yaml
deriving DecidableEq, Repr

namespace FileFormat

def ofName (name : String) : FileFormat :=
  if [".yaml", ".yml"].contains (FileName.suffix name) then .yaml else .json

def write (format : FileFormat) (d : Doc) : String :=
  match format with
  | .json => Json.indented d
  | .yaml => Yaml.print d

end FileFormat

inductive ReadError where
  /-- The bytes are no text. -/
  | notText
  | yaml (fault : Yaml.Fault)
  | invalid (faults : List PlacedFault)
deriving DecidableEq, Repr

/-- A text with every line ended by a line feed alone. -/
def unifyLines : List Char → List Char
  | '\r' :: '\n' :: rest => '\n' :: unifyLines rest
  | '\r' :: rest => '\n' :: unifyLines rest
  | c :: rest => c :: unifyLines rest
  | [] => []

def textOfBytes (bytes : Bytes) : Option String :=
  (Bytes.text? bytes).map fun text => String.ofList (unifyLines text.toList)

/-- The data that a text of a format holds. YAML is read by the given reader. -/
def FileFormat.read (format : FileFormat) (text : String)
    (yaml : String → Except Yaml.Fault Data := Yaml.read Decode.depth) : Except ReadError Data :=
  match format with
  | .json =>
    match Json.read text with
    | some d => .ok d
    | none => .error (.invalid [⟨[], .notJson⟩])
  | .yaml => (yaml text).mapError .yaml

namespace Report

def ofData (d : Data) : Except ReadError Report :=
  match Decode.report d with
  | .valid r => .ok r
  | .invalid faults => .error (.invalid faults)

def ofFile (name : String) (bytes : Bytes)
    (yaml : String → Except Yaml.Fault Data := Yaml.read Decode.depth) : Except ReadError Report :=
  match textOfBytes bytes with
  | none => .error .notText
  | some text => do ofData (← (FileFormat.ofName name).read text yaml)

end Report

end EndpointAudit
