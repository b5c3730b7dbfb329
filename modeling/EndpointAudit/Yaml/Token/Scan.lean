import EndpointAudit.Yaml.Numeral
import EndpointAudit.Yaml.Token.Basic
import EndpointAudit.Yaml.Token.Scalar

/-!
# From characters to tokens

The indentation of lines opens and closes block collections. A key need not be marked in front: a
token that may turn out to be a key is remembered until the colon behind it is met, and the mark is
then put in its place. Tokens can be used only when it is settled whether they are keys, so that a
fault in the file makes those in front of it useless that might still have become one.
-/

namespace EndpointAudit.Yaml

structure Place where
  index : Nat := 0
  line : Nat := 0
  column : Nat := 0
deriving DecidableEq, Repr

/-- The place behind a character. The byte-order mark takes up no column. -/
def Place.after (p : Place) (c : Char) : Place :=
  if isBreak c then { index := p.index + 1, line := p.line + 1, column := 0 }
  else if c.toNat = 0xFEFF then { p with index := p.index + 1 }
  else { p with index := p.index + 1, column := p.column + 1 }

structure PossibleKey where
  /-- The number of tokens in front of it. -/
  tokensBefore : Nat
  place : Place
  /-- Whether nothing else is allowed in its place. -/
  required : Bool
deriving DecidableEq, Repr

structure Scanner where
  rest : List Char
  place : Place := {}
  /-- The tokens read, the last one first. -/
  tokens : List Token := []
  /-- The columns of the open block collections, the innermost first. -/
  indents : List Nat := []
  /-- What may be a key in the open flow collections, the innermost first, and outside of them. -/
  keys : List (Option PossibleKey) := [none]
  /-- Whether a key may begin here. -/
  keyAllowed : Bool := true
deriving DecidableEq, Repr

namespace Scanner

/-- Whether what may be a key is not on this line or too far away to be one. -/
def isOld (s : Scanner) (key : PossibleKey) : Bool :=
  key.place.line != s.place.line || 1024 < s.place.index - key.place.index

/-- The number of tokens in front of all that may still turn out to be keys. -/
def settled (s : Scanner) : Nat :=
  (s.keys.filterMap (Option.filter fun key => !s.isOld key)).foldl
    (fun n key => min n key.tokensBefore) s.tokens.length

end Scanner

abbrev Scanning := StateT Scanner (Except Fault)

namespace Scanning

def inFlow : Scanning Bool := return 1 < (← get).keys.length

def moveTo (rest : List Char) : Scanning Unit := modify fun s =>
  { s with
    rest
    place := (s.rest.take (s.rest.length - rest.length)).foldl Place.after s.place }

def emit (token : Token) : Scanning Unit := modify fun s => { s with tokens := token :: s.tokens }

def allowKey (allowed : Bool) : Scanning Unit := modify fun s => { s with keyAllowed := allowed }

/-- Sets what may be a key in the innermost collection. -/
def setKey (key : Option PossibleKey) : Scanning Unit := modify fun s =>
  { s with keys := key :: s.keys.tail }

def currentKey : Scanning (Option PossibleKey) := return (← get).keys.headD none

/-- Gives up what may be a key; it must not be required. -/
def dropKey : Scanning Unit := do
  if (← currentKey).any (·.required) then throw .malformed
  setKey none

def rememberKey : Scanning Unit := do
  let s ← get
  if s.keyAllowed then
    dropKey
    setKey (some
      { tokensBefore := s.tokens.length
        place := s.place
        required := s.keys.length == 1 && s.indents.head? == some s.place.column })

def dropOldKeys : Scanning Unit := do
  let s ← get
  if s.keys.any (·.any fun key => s.isOld key && key.required) then throw .malformed
  set { s with keys := s.keys.map (Option.filter fun key => !s.isOld key) }

/-- Closes block collections that are indented further than a column; all of them without one. -/
def closeBlocks (column : Option Nat) : Scanning Unit := do
  if !(← inFlow) then
    modify fun s =>
      let isOpen (indent : Nat) : Bool := column.all (· < indent)
      { s with
        indents := s.indents.dropWhile isOpen
        tokens := (s.indents.takeWhile isOpen).map (fun _ => .blockEnd) ++ s.tokens }

/-- Opens a block collection at a column, unless it is open already. Tells whether it did. -/
def openBlock (column : Nat) : Scanning Bool := do
  let s ← get
  if s.indents.head?.all (· < column) then
    set { s with indents := column :: s.indents }
    return true
  else return false

/-- Opens a block collection here, unless it is open already. It must begin where a key may. -/
def openBlockHere (start : Token) : Scanning Unit := do
  if !(← inFlow) then
    if !(← get).keyAllowed then throw .malformed
    if ← openBlock (← get).place.column then emit start

/-- Puts tokens in front of those that follow the first `n`. -/
def insertAfter (n : Nat) (inserted : List Token) : Scanning Unit := modify fun s =>
  let later := s.tokens.length - n
  { s with tokens := s.tokens.take later ++ inserted.reverse ++ s.tokens.drop later }

def sign (length : Nat) (token : Token) : Scanning Unit := do
  moveTo ((← get).rest.drop length)
  emit token

/-! ## Signs -/

def documentMark (token : Token) : Scanning Unit := do
  closeBlocks none
  dropKey
  allowKey false
  sign 3 token

def flowStart (token : Token) : Scanning Unit := do
  rememberKey
  modify fun s => { s with keys := none :: s.keys }
  allowKey true
  sign 1 token

def flowEnd (token : Token) : Scanning Unit := do
  if !(← inFlow) then throw .malformed
  dropKey
  modify fun s => { s with keys := s.keys.tail }
  allowKey false
  sign 1 token

def flowEntry : Scanning Unit := do
  allowKey true
  dropKey
  sign 1 .flowEntry

def blockEntry : Scanning Unit := do
  openBlockHere .blockSequenceStart
  allowKey true
  dropKey
  sign 1 .blockEntry

def keySign : Scanning Unit := do
  openBlockHere .blockMappingStart
  allowKey (!(← inFlow))
  dropKey
  sign 1 .key

/-- The sign in front of a value. If a possible key stands in front of it, it is one. -/
def valueSign : Scanning Unit := do
  match ← currentKey with
  | some key =>
    setKey none
    let opens ← if ← inFlow then pure false else openBlock key.place.column
    insertAfter key.tokensBefore ((if opens then [.blockMappingStart] else []) ++ [.key])
    allowKey false
  | none =>
    openBlockHere .blockMappingStart
    allowKey (!(← inFlow))
    dropKey
  sign 1 .value

/-! ## Names -/

def isNameChar (c : Char) : Bool := c.isAlphanum || c == '-' || c == '_'

def anchorName (token : String → Token) : Scanning Unit := do
  rememberKey
  allowKey false
  let (name, rest) := ((← get).rest.drop 1).span isNameChar
  if name.isEmpty then throw .malformed
  if !rest.head?.all fun c => isWhite c || "?:,]\x7d%@`".toList.contains c then throw .malformed
  moveTo rest
  emit (token (String.ofList name))

def isTagChar (c : Char) : Bool := c.isAlphanum || "-;/?:@&=+$,_.!~*'()[]".toList.contains c

/-- The bytes that escapes with a percent sign in front of a text denote, and what follows. -/
def escapedBytes : List Char → Except Fault (List UInt8 × List Char)
  | '%' :: a :: b :: rest => do
    match Text.hexNumber [a, b] with
    | none => .error .malformed
    | some n =>
      let (more, after) ← escapedBytes rest
      return (n.toUInt8 :: more, after)
  | '%' :: _ => .error .malformed
  | cs => .ok ([], cs)

def tagChars : (steps : Nat) → List Char → Except Fault (List Char × List Char)
  | 0, cs => .ok ([], cs)
  | steps + 1, cs =>
    match cs with
    | [] => .ok ([], [])
    | c :: rest =>
      if c = '%' then do
        let (bytes, rest) ← escapedBytes (c :: rest)
        match String.fromUTF8? ⟨bytes.toArray⟩ with
        | none => .error .malformed
        | some text =>
          let (more, after) ← tagChars steps rest
          return (text.toList ++ more, after)
      else if isTagChar c then do
        let (more, after) ← tagChars steps rest
        return (c :: more, after)
      else .ok ([], c :: rest)

def tagText (cs : List Char) : Except Fault (String × List Char) := do
  let (text, rest) ← tagChars (cs.length + 1) cs
  if text.isEmpty then throw .malformed
  return (String.ofList text, rest)

def tagHandle (cs : List Char) : Except Fault (String × List Char) :=
  match cs with
  | '!' :: ' ' :: rest => .ok ("!", ' ' :: rest)
  | '!' :: rest =>
    match rest.span isNameChar with
    | (name, '!' :: after) => .ok (String.ofList ('!' :: name ++ ['!']), after)
    | _ => .error .malformed
  | _ => .error .malformed

/-- Whether a text begins with a space or a line break, or is empty. -/
def atSpace (cs : List Char) : Bool := cs.head?.all fun c => c == ' ' || isBreak c

def tagParts (cs : List Char) : Except Fault ((Option String × String) × List Char) := do
  match cs.drop 1 with
  | '<' :: rest =>
    match ← tagText rest with
    | (suffix, '>' :: after) => return ((none, suffix), after)
    | _ => throw .malformed
  | rest =>
    if rest.head?.all isWhite then return ((none, "!"), rest)
    else
      let (handle, rest) ← if (rest.takeWhile fun c => c != ' ' && !isBreak c).contains '!' then
          tagHandle cs
        else pure ("!", rest)
      let (suffix, after) ← tagText rest
      return ((some handle, suffix), after)

def tag : Scanning Unit := do
  rememberKey
  allowKey false
  let ((handle, suffix), rest) ← tagParts (← get).rest
  if !atSpace rest then throw .malformed
  moveTo rest
  emit (.tag handle suffix)

/-! ## Directives -/

def directiveNumber (cs : List Char) : Except Fault (Nat × List Char) :=
  match cs.span Text.isDigit with
  | ([], _) => .error .malformed
  | (digits, rest) =>
    if maxDigits < digits.length then .error .badNumber
    else .ok (Text.decimalNumber digits, rest)

def directiveBody (name : String) (cs : List Char) : Except Fault (Directive × List Char) := do
  let cs := cs.dropWhile (· == ' ')
  match name with
  | "YAML" =>
    match ← directiveNumber cs with
    | (major, '.' :: rest) =>
      let (_, rest) ← directiveNumber rest
      if !atSpace rest then throw .malformed
      return (.version major, rest)
    | _ => throw .malformed
  | "TAG" =>
    match ← tagHandle cs with
    | (handle, ' ' :: rest) =>
      let (start, rest) ← tagText (rest.dropWhile (· == ' '))
      if !atSpace rest then throw .malformed
      return (.tag handle start, rest)
    | _ => throw .malformed
  | _ => return (.other, cs.dropWhile (!isBreak ·))

def directive : Scanning Unit := do
  closeBlocks none
  dropKey
  allowKey false
  let (name, rest) := ((← get).rest.drop 1).span isNameChar
  if name.isEmpty || !atSpace rest then throw .malformed
  let (found, rest) ← directiveBody (String.ofList name) rest
  moveTo (← endOfLine rest)
  emit (.directive found)

/-! ## Scalars -/

/-- The least column of the further lines of a scalar. -/
def leastColumn (s : Scanner) : Nat :=
  match s.indents with
  | [] => 0
  | indent :: _ => indent + 1

def quoted (double : Bool) : Scanning Unit := do
  rememberKey
  allowKey false
  let (text, rest) ← quotedScalar double ((← get).rest.drop 1)
  moveTo rest
  emit (.scalar text false)

def plain : Scanning Unit := do
  rememberKey
  let s ← get
  let (text, rest, crossed) := plainScalar (1 < s.keys.length) (leastColumn s) s.rest
  moveTo rest
  allowKey crossed
  emit (.scalar (some text) true)

def block (folded : Bool) : Scanning Unit := do
  allowKey true
  dropKey
  let s ← get
  let (text, rest) ← blockScalar folded (max 1 (leastColumn s)) (s.rest.drop 1)
  moveTo rest
  emit (.scalar (some text) false)

/-! ## Tokens -/

/-- What follows spaces, comments and line breaks, and whether there is a line break among them. -/
def skipBlank (inComment : Bool) : List Char → List Char × Bool
  | [] => ([], false)
  | c :: rest =>
    if isBreak c then ((skipBlank false rest).1, true)
    else if inComment || c == '#' then skipBlank true rest
    else if c = ' ' then skipBlank false rest
    else (c :: rest, false)

/-- Goes on to the next token. A key may begin on a new line outside flow collections. -/
def toToken : Scanning Unit := do
  let s ← get
  let start := if s.place.index = 0 ∧ s.rest.head?.any (·.toNat == 0xFEFF) then s.rest.tail
    else s.rest
  let (rest, crossed) := skipBlank false start
  moveTo rest
  if crossed && s.keys.length == 1 then allowKey true

def startsPlain (inFlow : Bool) (c : Char) (rest : List Char) : Bool :=
  !(isWhite c || "-?:,[]\x7b\x7d#&*!|>'\"%@`".toList.contains c) ||
    (!rest.head?.all isWhite && (c == '-' || (!inFlow && (c == '?' || c == ':'))))

def token (c : Char) (rest : List Char) : Scanning Unit := do
  let inFlow ← inFlow
  let atLineStart := (← get).place.column == 0
  let alone := rest.head?.all isWhite
  if atLineStart && c == '%' then directive
  else if atLineStart && atMarker (c :: rest) then
    documentMark (if c == '-' then .documentStart else .documentEnd)
  else if c == '[' then flowStart .flowSequenceStart
  else if c == '\x7b' then flowStart .flowMappingStart
  else if c == ']' then flowEnd .flowSequenceEnd
  else if c == '\x7d' then flowEnd .flowMappingEnd
  else if c == ',' then flowEntry
  else if c == '-' && alone then blockEntry
  else if c == '?' && (inFlow || alone) then keySign
  else if c == ':' && (inFlow || alone) then valueSign
  else if c == '*' then anchorName .alias
  else if c == '&' then anchorName .anchor
  else if c == '!' then tag
  else if c == '|' && !inFlow then block false
  else if c == '>' && !inFlow then block true
  else if c == '\'' then quoted false
  else if c == '"' then quoted true
  else if startsPlain inFlow c rest then plain
  else throw .malformed

/-- Reads the next token. Tells whether there is one. -/
def next : Scanning Bool := do
  toToken
  dropOldKeys
  closeBlocks (some (← get).place.column)
  match (← get).rest with
  | [] =>
    closeBlocks none
    dropKey
    return false
  | c :: rest =>
    token c rest
    return true

end Scanning

def isAllowed (c : Char) : Bool :=
  let n := c.toNat
  n == 0x09 || n == 0x0A || n == 0x0D || (0x20 ≤ n && n ≤ 0x7E) || n == 0x85 ||
    (0xA0 ≤ n && n ≤ 0xD7FF) || (0xE000 ≤ n && n ≤ 0xFFFD) || 0x10000 ≤ n

/-- The tokens of a file, the rest of which is read in at most `steps` steps. -/
def Scanner.stream : (steps : Nat) → Scanner → TokenStream
  | 0, s => { tokens := s.tokens.reverse }
  | steps + 1, s =>
    match Scanning.next.run s with
    | .ok (true, s) => s.stream steps
    | .ok (false, s) => { tokens := s.tokens.reverse }
    | .error fault => { tokens := s.tokens.reverse.take s.settled, fault := some fault }

/-- The tokens of a file, whose lines end in line feeds. Every token takes at least one character,
so as many steps as there are characters are enough. -/
def Token.scan (text : String) : TokenStream :=
  let cs := text.toList
  if cs.all isAllowed then Scanner.stream (cs.length + 1) { rest := cs }
  else { tokens := [], fault := some .malformed }

end EndpointAudit.Yaml
