import EndpointAudit.Yaml.Schema

/-!
# Nodes of YAML

A document as a graph of tagged nodes, which are known by their numbers. An alias is another way to
the same node, and a node may lie inside itself.
-/

namespace EndpointAudit.Yaml

abbrev NodeId := Nat

inductive Content where
  /-- A scalar, without a text if halves of surrogate pairs stand alone in it. -/
  | scalar (text : Option String)
  | sequence (items : List NodeId)
  | mapping (entries : List (NodeId × NodeId))
deriving DecidableEq, Repr

structure Node where
  tag : Tag
  content : Content
deriving DecidableEq, Repr

/-- The node where nothing is written. -/
def Node.empty : Node := { tag := .null, content := .scalar (some "") }

structure Document where
  nodes : Array Node
  root : NodeId
deriving DecidableEq, Repr

/-- The beginning of the tags of the language. -/
def tagStart : String := "tag:yaml.org,2002:"

def standardTags : List (String × Tag) :=
  [("null", .null), ("bool", .bool), ("int", .int), ("float", .float), ("timestamp", .timestamp),
    ("str", .text), ("binary", .binary), ("merge", .merge), ("value", .default),
    ("seq", .sequence), ("map", .mapping), ("set", .set), ("omap", .pairs), ("pairs", .pairs)]

def Tag.ofName (name : String) : Tag :=
  ((standardTags.find? fun (short, _) => tagStart ++ short == name).map (·.2)).getD .unknown

end EndpointAudit.Yaml
