import EndpointAudit.Yaml.Fault

/-!
# Tokens of YAML

The signs, names and scalars that a file consists of. The start and the end of a block collection
have no sign of their own; they are told from the indentation.
-/

namespace EndpointAudit.Yaml

inductive Directive where
  | version (major : Nat)
  /-- A short form for the beginning of tags. -/
  | tag (handle start : String)
  | other
deriving DecidableEq, Repr

inductive Token where
  | directive (directive : Directive)
  | documentStart
  | documentEnd
  | blockSequenceStart
  | blockMappingStart
  | blockEnd
  | flowSequenceStart
  | flowSequenceEnd
  | flowMappingStart
  | flowMappingEnd
  | blockEntry
  | flowEntry
  | key
  | value
  | alias (name : String)
  | anchor (name : String)
  /-- A tag; without a handle it is given in full. -/
  | tag (handle : Option String) (suffix : String)
  /-- A scalar, without a text if halves of surrogate pairs stand alone in it. -/
  | scalar (text : Option String) (plain : Bool)
deriving DecidableEq, Repr

/-- The tokens of a file as far as they can be read. -/
structure TokenStream where
  tokens : List Token
  /-- Why the file cannot be read any further, if it has not come to its end. -/
  fault : Option Fault := none
deriving DecidableEq, Repr

end EndpointAudit.Yaml
