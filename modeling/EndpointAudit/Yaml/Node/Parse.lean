import EndpointAudit.Yaml.Node.Basic
import EndpointAudit.Yaml.Token.Scan

/-!
# From tokens to nodes

A file holds at most one document. A node may be given a name by an anchor; an alias with that name
stands for the same node from there on, inside the node itself as well.
-/

namespace EndpointAudit.Yaml

/-- How far the tokens of a file have been read. -/
structure Parser where
  stream : TokenStream
  /-- The short forms for the beginnings of tags. -/
  handles : List (String × String) := []
  /-- The nodes that have a name. -/
  anchors : List (String × NodeId) := []
  nodes : Array Node := #[]

abbrev Parsing := StateT Parser (Except Fault)

namespace Parsing

/-- The next token. If there is none because the file is faulty, the fault is met here. -/
def peek : Parsing (Option Token) := do
  let stream := (← get).stream
  match stream.tokens.head?, stream.fault with
  | some token, _ => return some token
  | none, some fault => throw fault
  | none, none => return none

def advance : Parsing Unit := modify fun p =>
  { p with stream := { p.stream with tokens := p.stream.tokens.tail } }

/-- Goes on if the next token is a given one, and tells whether it is. -/
def accept (token : Token) : Parsing Bool := do
  if (← peek) == some token then
    advance
    return true
  else return false

def atOneOf (tokens : List Token) : Parsing Bool :=
  return (← peek).any tokens.contains

def add (node : Node) : Parsing NodeId := do
  let p ← get
  set { p with nodes := p.nodes.push node }
  return p.nodes.size

def fill (id : NodeId) (content : Content) : Parsing Unit := modify fun p =>
  { p with nodes := p.nodes.modify id fun node => { node with content } }

/-! ## Properties of nodes -/

def anchor? : Parsing (Option String) := do
  match ← peek with
  | some (.anchor name) =>
    advance
    return some name
  | _ => return none

def tag? : Parsing (Option (Option String × String)) := do
  match ← peek with
  | some (.tag handle suffix) =>
    advance
    return some (handle, suffix)
  | _ => return none

def tagName (handle : Option String) (suffix : String) : Parsing String := do
  match handle with
  | none => return suffix
  | some handle =>
    match (← get).handles.lookup handle with
    | some start => return start ++ suffix
    | none => throw .malformed

/-- Anchor and tag in front of a node, in either order. -/
def properties : Parsing (Option String × Option String) := do
  let first ← anchor?
  let tag ← tag?
  let anchor ← if first.isSome then pure first else anchor?
  match tag with
  | none => return (anchor, none)
  | some (handle, suffix) => return (anchor, some (← tagName handle suffix))

/-- The tag of a node that is none of its own unless it is given one. A single exclamation mark
gives none. -/
def tagOr (tag : Option String) (standard : Tag) : Tag :=
  match tag with
  | none => standard
  | some "!" => standard
  | some name => Tag.ofName name

/-- The node that a scalar is. Without a tag a quoted one is a text, and a plain one what it looks
like; a single exclamation mark makes both alike. -/
def scalarNode (tag : Option String) (text : Option String) (plain : Bool) : Node :=
  let standard := if plain || tag.isSome then (text.map tagOf).getD .text else .text
  { tag := tagOr tag standard, content := .scalar text }

def name (anchor : Option String) (id : NodeId) : Parsing Unit :=
  match anchor with
  | none => return
  | some name => modify fun p => { p with anchors := (name, id) :: p.anchors }

def checkNew (anchor : Option String) : Parsing Unit := do
  let known := (← get).anchors
  if anchor.any fun name => (known.lookup name).isSome then throw .malformed

def addNamed (anchor : Option String) (node : Node) : Parsing NodeId := do
  let id ← add node
  name anchor id
  return id

/-- Adds the node of which nothing but an anchor or a tag is written. -/
def bare (anchor tag : Option String) : Parsing NodeId :=
  if anchor.isNone && tag.isNone then throw .malformed
  else addNamed anchor { tag := tagOr tag .null, content := .scalar (some "") }

/-- Adds a sequence, which has its name already while its items are read. -/
def sequence (anchor tag : Option String) (items : Parsing (List NodeId)) : Parsing NodeId := do
  let id ← addNamed anchor { tag := tagOr tag .sequence, content := .sequence [] }
  fill id (.sequence (← items))
  return id

def mapping (anchor tag : Option String) (entries : Parsing (List (NodeId × NodeId))) :
    Parsing NodeId := do
  let id ← addNamed anchor { tag := tagOr tag .mapping, content := .mapping [] }
  fill id (.mapping (← entries))
  return id

/-! ## Nodes -/

mutual

/-- A node. Block collections may only begin where `block` allows it, and sequences without
indentation where `flat` does. -/
def node : (steps : Nat) → (block flat : Bool) → Parsing NodeId
  | 0, _, _ => throw .malformed
  | steps + 1, block, flat => do
    if let some (.alias name) ← peek then
      advance
      match (← get).anchors.lookup name with
      | some id => return id
      | none => throw .malformed
    let (anchor, tag) ← properties
    let next ← peek
    checkNew anchor
    match next with
    | some (.scalar text plain) =>
      advance
      addNamed anchor (scalarNode tag text plain)
    | some .flowSequenceStart =>
      advance
      sequence anchor tag (flowItems steps true)
    | some .flowMappingStart =>
      advance
      mapping anchor tag (flowEntries steps true)
    | some .blockEntry => if flat then sequence anchor tag (flatItems steps) else bare anchor tag
    | some .blockSequenceStart =>
      if block then
        advance
        sequence anchor tag (blockItems steps)
      else bare anchor tag
    | some .blockMappingStart =>
      if block then
        advance
        mapping anchor tag (blockEntries steps)
      else bare anchor tag
    | _ => bare anchor tag

def blockItems : (steps : Nat) → Parsing (List NodeId)
  | 0 => throw .malformed
  | steps + 1 => do
    if ← accept .blockEntry then
      let item ← if ← atOneOf [.blockEntry, .blockEnd] then add .empty else node steps true false
      return item :: (← blockItems steps)
    else if ← accept .blockEnd then return []
    else throw .malformed

/-- The items of a sequence that is not indented further than the mapping around it. -/
def flatItems : (steps : Nat) → Parsing (List NodeId)
  | 0 => throw .malformed
  | steps + 1 => do
    if ← accept .blockEntry then
      let item ← if ← atOneOf [.blockEntry, .key, .value, .blockEnd] then add .empty
        else node steps true false
      return item :: (← flatItems steps)
    else return []

def blockEntries : (steps : Nat) → Parsing (List (NodeId × NodeId))
  | 0 => throw .malformed
  | steps + 1 => do
    if ← accept .key then
      let key ← blockPart steps
      let value ← if ← accept .value then blockPart steps else add .empty
      return (key, value) :: (← blockEntries steps)
    else if ← accept .blockEnd then return []
    else throw .malformed

def blockPart : (steps : Nat) → Parsing NodeId
  | 0 => throw .malformed
  | steps + 1 => do
    if ← atOneOf [.key, .value, .blockEnd] then add .empty else node steps true true

/-- A key or a value in a flow collection that ends with a given token. -/
def flowPart : (steps : Nat) → (ends : List Token) → Parsing NodeId
  | 0, _ => throw .malformed
  | steps + 1, ends => do
    if ← atOneOf ends then add .empty else node steps false false

/-- The items of a flow sequence. A key in it begins a mapping with a single entry. -/
def flowItems : (steps : Nat) → (first : Bool) → Parsing (List NodeId)
  | 0, _ => throw .malformed
  | steps + 1, first => do
    if ← accept .flowSequenceEnd then return []
    if !first then
      if !(← accept .flowEntry) then throw .malformed
    if ← accept .key then
      let pair ← add { tag := .mapping, content := .mapping [] }
      let key ← flowPart steps [.value, .flowEntry, .flowSequenceEnd]
      let value ← if ← accept .value then flowPart steps [.flowEntry, .flowSequenceEnd]
        else add .empty
      fill pair (.mapping [(key, value)])
      return pair :: (← flowItems steps false)
    else if ← accept .flowSequenceEnd then return []
    else
      let item ← node steps false false
      return item :: (← flowItems steps false)

/-- The entries of a flow mapping. A node without a colon is a key without a value. -/
def flowEntries : (steps : Nat) → (first : Bool) → Parsing (List (NodeId × NodeId))
  | 0, _ => throw .malformed
  | steps + 1, first => do
    if ← accept .flowMappingEnd then return []
    if !first then
      if !(← accept .flowEntry) then throw .malformed
    if ← accept .key then
      let key ← flowPart steps [.value, .flowEntry, .flowMappingEnd]
      let value ← if ← accept .value then flowPart steps [.flowEntry, .flowMappingEnd]
        else add .empty
      return (key, value) :: (← flowEntries steps false)
    else if ← accept .flowMappingEnd then return []
    else
      let key ← node steps false false
      let value ← add .empty
      return (key, value) :: (← flowEntries steps false)

end

/-! ## Documents -/

/-- The short forms that are known without a directive. -/
def standardHandles : List (String × String) := [("!", "!"), ("!!", tagStart)]

/-- Reads the directives at the head of a document. There may be one for the version, which must be
the first one, and one for each short form. -/
def directives (versioned : Bool) : List Token → Parsing Unit
  | .directive (.version major) :: rest => do
    if versioned || major != 1 then throw .malformed
    advance
    directives true rest
  | .directive (.tag handle start) :: rest => do
    if ((← get).handles.lookup handle).isSome then throw .malformed
    advance
    modify fun p => { p with handles := (handle, start) :: p.handles }
    directives versioned rest
  | .directive .other :: rest => do
    advance
    directives versioned rest
  | _ => return

def addStandardHandles : Parsing Unit :=
  modify fun p => { p with handles := p.handles ++ standardHandles }

/-- Whether the next token is outside of documents, or there is none. -/
def atDocumentEnd : Parsing Bool := do
  match ← peek with
  | none | some (.directive _) | some .documentStart | some .documentEnd => return true
  | _ => return false

/-- Reads the directives at the head of a document that has some or begins with a mark. -/
def head : Parsing Unit := do
  directives false (← get).stream.tokens
  addStandardHandles
  if !(← accept .documentStart) then throw .malformed

def document : Parsing NodeId := do
  let steps := 4 * (← get).stream.tokens.length + 4
  match ← peek with
  | some (.directive _) | some .documentStart =>
    head
    if ← atDocumentEnd then add .empty else node steps true false
  | _ =>
    addStandardHandles
    node steps true false

/-- Reads the marks behind a document. There must not be another one. -/
def endOfFile : Parsing Unit := do
  modify fun p => { p with
    handles := []
    stream := { p.stream with tokens := p.stream.tokens.dropWhile (· == .documentEnd) } }
  if (← peek).isSome then
    head
    throw .malformed

/-- The root of the only document of a file, if there is one, and nothing behind it. -/
def file : Parsing (Option NodeId) := do
  if (← peek).isNone then return none
  let root ← document
  endOfFile
  return some root

end Parsing

def Document.ofTokens (stream : TokenStream) : Except Fault (Option Document) :=
  (Parsing.file.run { stream }).map fun (root, p) => root.map fun root => { nodes := p.nodes, root }

end EndpointAudit.Yaml
