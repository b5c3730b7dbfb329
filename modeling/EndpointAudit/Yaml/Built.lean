import EndpointAudit.Yaml.Node.Basic
import EndpointAudit.Yaml.Scalar

/-!
# Values of nodes

The nodes of a document are given their values one after the other. A scalar has its value at once;
a collection is put off until those in front of it have been filled, so that the document is worked
through level by level, and the first fault that is met counts. A node that is met again has its
value already, be it filled or not.

A mapping is filled after the entries of others have been merged into it. Merging changes the nodes
of a document: merged entries become the mapping's own, and keys of default values become texts.
-/

namespace EndpointAudit.Yaml

/-- The value of a node; those in a collection are given by their nodes. -/
inductive Built where
  | leaf (value : Data)
  /-- A collection that has not been filled yet. -/
  | unfilled
  | list (items : List NodeId)
  | map (entries : List (NodeId × NodeId))
  | set (keys : List NodeId)
  | pairs (entries : List (NodeId × NodeId))
deriving Repr

/-- How far the nodes of a document have been given values. -/
structure Builder where
  nodes : Array Node
  /-- The values of the nodes that have been met. -/
  values : Array (Option Built)
  /-- The collections to be filled, the next one last. -/
  queue : List NodeId := []

abbrev Building := StateT Builder (Except Fault)

namespace Building

def node (id : NodeId) : Building Node := return (← get).nodes.getD id .empty

def setContent (id : NodeId) (content : Content) : Building Unit := modify fun b =>
  { b with nodes := b.nodes.modify id fun node => { node with content } }

def setTag (id : NodeId) (tag : Tag) : Building Unit := modify fun b =>
  { b with nodes := b.nodes.modify id fun node => { node with tag } }

def setValue (id : NodeId) (value : Built) : Building Unit := modify fun b =>
  { b with values := b.values.modify id fun _ => some value }

def value? (id : NodeId) : Building (Option Built) := return ((← get).values[id]?).join

def entries? (id : NodeId) : Building (Option (List (NodeId × NodeId))) := do
  match (← node id).content with
  | .mapping entries => return some entries
  | _ => return none

/-! ## Merging -/

/-- The value of the first entry whose key is for merging, and the other entries. -/
def takeMerge (entries : List (NodeId × NodeId)) :
    Building (Option (NodeId × List (NodeId × NodeId))) := do
  match entries with
  | [] => return none
  | (key, value) :: rest =>
    if (← node key).tag = .merge then return some (value, rest)
    else return (← takeMerge rest).map fun (merged, rest) => (merged, (key, value) :: rest)

mutual

/-- Puts the entries that are merged into a mapping in front of its own. -/
def flatten : (steps : Nat) → NodeId → Building Unit
  | 0, _ => throw .malformed
  | steps + 1, id => do
    let merged ← mergedInto steps id
    let own := (← entries? id).getD []
    own.forM fun (key, _) => do
      if (← node key).tag = .default then setTag key .text
    if !merged.isEmpty then setContent id (.mapping (merged ++ own))

/-- Takes the entries for merging out of a mapping. Returns the entries that they merge in. -/
def mergedInto : (steps : Nat) → NodeId → Building (List (NodeId × NodeId))
  | 0, _ => throw .malformed
  | steps + 1, id => do
    match ← takeMerge ((← entries? id).getD []) with
    | none => return []
    | some (value, rest) =>
      setContent id (.mapping rest)
      let merged ← mergedFrom steps value
      return merged ++ (← mergedInto steps id)

/-- The entries that a value merges in: those of a mapping, or of a list of mappings, of which the
first one counts most. -/
def mergedFrom : (steps : Nat) → NodeId → Building (List (NodeId × NodeId))
  | 0, _ => throw .malformed
  | steps + 1, id => do
    match (← node id).content with
    | .mapping _ => flattened steps id
    | .sequence items => return (← items.mapM (flattened steps)).reverse.flatten
    | .scalar _ => throw .malformed

def flattened : (steps : Nat) → NodeId → Building (List (NodeId × NodeId))
  | 0, _ => throw .malformed
  | steps + 1, id => do
    if (← entries? id).isNone then throw .malformed
    flatten steps id
    return (← entries? id).getD []

end

def countEntries (node : Node) : Nat :=
  match node.content with
  | .mapping entries => entries.length
  | _ => 0

def entryCount : Building Nat := do
  return (← get).nodes.foldl (fun n node => n + countEntries node) 0

/-- Merges into a mapping what is to be merged. Every entry for merging is taken out only once,
which bounds the number of steps. -/
def mergeAll (id : NodeId) : Building Unit := do
  flatten (5 * (← entryCount) + 5) id

/-! ## Scalars -/

/-- The scalar that a node stands for: itself, or the default value of a mapping. -/
def scalar : (steps : Nat) → NodeId → Building (Option String)
  | 0, _ => throw .endlessDefault
  | steps + 1, id => do
    match (← node id).content with
    | .scalar text => return text
    | .sequence _ => throw .malformed
    | .mapping entries =>
      match ← entries.findM? fun (key, _) => return (← node key).tag = .default with
      | some (_, value) => scalar steps value
      | none => throw .malformed

def scalarOf (id : NodeId) : Building Data := do
  let node ← node id
  let text ← scalar ((← get).nodes.size + 1) id
  match node.tag, node.content with
  | .timestamp, .mapping _ => throw .mappedMoment
  | tag, _ => scalarValue tag text

/-! ## Collections -/

/-- Sees to it that a node has a value. Collections are filled later. -/
def meet (id : NodeId) : Building Unit := do
  if (← value? id).isNone then
    match (← node id).tag with
    | .sequence | .mapping | .set | .pairs =>
      setValue id .unfilled
      modify fun b => { b with queue := id :: b.queue }
    | .merge | .default | .unknown => throw .malformed
    | _ => setValue id (.leaf (← scalarOf id))

/-- Sees to it that a key has a value, which must not be a collection. -/
def meetKey (id : NodeId) : Building Unit := do
  meet id
  match ← value? id with
  | some (.leaf _) => return
  | _ => throw .malformed

def mapEntries (id : NodeId) : Building (List (NodeId × NodeId)) := do
  if (← entries? id).isNone then throw .malformed
  mergeAll id
  let entries := (← entries? id).getD []
  entries.forM fun (key, value) => do
    meetKey key
    meet value
  return entries

/-- The only entry of a mapping. -/
def pair (id : NodeId) : Building (NodeId × NodeId) := do
  match ← entries? id with
  | some [(key, value)] =>
    meet key
    meet value
    return (key, value)
  | _ => throw .malformed

def items (id : NodeId) : Building (List NodeId) := do
  match (← node id).content with
  | .sequence items => return items
  | _ => throw .malformed

def fill (id : NodeId) : Building Unit := do
  match (← node id).tag with
  | .sequence =>
    let items ← items id
    items.forM meet
    setValue id (.list items)
  | .mapping => setValue id (.map (← mapEntries id))
  | .set => setValue id (.set ((← mapEntries id).map (·.1)))
  | .pairs => setValue id (.pairs (← (← items id).mapM pair))
  | _ => return

/-- Fills collections from a list, and then those that have been put off in the meantime, level by
level. -/
def fillAll : (steps : Nat) → Building Unit
  | 0 => return
  | steps + 1 => do
    match (← get).queue with
    | [] => return
    | queue =>
      modify fun b => { b with queue := [] }
      queue.reverse.forM fill
      fillAll steps

end Building

/-- The values of the nodes of a document. Every level has a node of its own, so there are not more
levels than nodes. -/
def Document.build (d : Document) : Except Fault (Array (Option Built)) :=
  let building : Building Unit := do
    Building.meet d.root
    Building.fillAll (d.nodes.size + 1)
  (building.run { nodes := d.nodes, values := .replicate d.nodes.size none }).map (·.2.values)

end EndpointAudit.Yaml
