import EndpointAudit.Yaml.Fault
import EndpointAudit.Yaml.Printer

/-!
# The text of scalars

How the text of a scalar is put together from the characters of a file: between quotes, without
quotes, or as an indented block. Lines are folded: a line feed counts as a space, and of several
line feeds one is dropped.
-/

namespace EndpointAudit.Yaml

def isWhite (c : Char) : Bool := isGap c || isBreak c

/-- A line break as it stands in a value. -/
def normalBreak (c : Char) : Char := if c.toNat = 0x85 then '\n' else c

/-- Whether a line begins with one of the marks between documents. -/
def atMarker (line : List Char) : Bool :=
  (line.take 3 == ['-', '-', '-'] || line.take 3 == ['.', '.', '.']) &&
    (line.drop 3).head?.all isWhite

/-! ## Quoted scalars -/

inductive Atom where
  | char (c : Char)
  /-- An escaped half of a surrogate pair. -/
  | half
  | gap (c : Char)
  | lineBreak (c : Char)
  /-- An escaped line break, which joins two lines. -/
  | joint
deriving DecidableEq, Repr

def Atom.of (c : Char) : Atom :=
  if isGap c then .gap c else if isBreak c then .lineBreak (normalBreak c) else .char c

/-- More parts behind one that has been read, unless it ends a line in front of a mark. -/
def Atom.followedBy (atom : Atom) (rest : List Char)
    (more : Except Fault (List Atom × List Char)) : Except Fault (List Atom × List Char) :=
  match atom with
  | .char _ | .half | .gap _ => more.map fun (atoms, after) => (atom :: atoms, after)
  | _ => if atMarker rest then .error .malformed
    else more.map fun (atoms, after) => (atom :: atoms, after)

/-- The parts of a scalar behind a single quote, and what follows the closing one. -/
def singleAtoms : List Char → Except Fault (List Atom × List Char)
  | [] => .error .malformed
  | '\'' :: '\'' :: rest => (Atom.char '\'').followedBy rest (singleAtoms rest)
  | '\'' :: rest => .ok ([], rest)
  | c :: rest => (Atom.of c).followedBy rest (singleAtoms rest)

def escapedChars : List (Char × Nat) :=
  [('0', 0x00), ('a', 0x07), ('b', 0x08), ('t', 0x09), ('\t', 0x09), ('n', 0x0A), ('v', 0x0B),
    ('f', 0x0C), ('r', 0x0D), ('e', 0x1B), (' ', 0x20), ('"', 0x22), ('\\', 0x5C), ('/', 0x2F),
    ('N', 0x85), ('_', 0xA0), ('L', 0x2028), ('P', 0x2029)]

def escapeWidth (letter : Char) : Nat :=
  match letter with
  | 'x' => 2
  | 'u' => 4
  | 'U' => 8
  | _ => 0

def numberedAtom (n : Nat) : Except Fault Atom :=
  if 0x7FFFFFFF < n then .error .hugeChar
  else if 0x10FFFF < n then .error .noSuchChar
  else if 0xD800 ≤ n ∧ n ≤ 0xDFFF then .ok .half
  else .ok (.char (Char.ofNat n))

def escapedAtom (letter : Char) (digits : List Char) : Except Fault Atom :=
  if isBreak letter then .ok .joint
  else match escapedChars.lookup letter with
    | some n => .ok (.char (Char.ofNat n))
    | none =>
      if escapeWidth letter = 0 ∨ digits.length < escapeWidth letter then .error .malformed
      else match Text.hexNumber digits with
        | none => .error .malformed
        | some n => numberedAtom n

def doubleAtoms : List Char → Except Fault (List Atom × List Char)
  | [] => .error .malformed
  | '"' :: rest => .ok ([], rest)
  | '\\' :: letter :: rest =>
    match escapedAtom letter (rest.take (escapeWidth letter)) with
    | .error e => .error e
    | .ok atom => atom.followedBy rest (doubleAtoms (rest.drop (escapeWidth letter)))
  | '\\' :: [] => .error .malformed
  | c :: rest => (Atom.of c).followedBy rest (doubleAtoms rest)
termination_by cs => cs.length
decreasing_by all_goals simp only [List.length_cons, List.length_drop]; omega

/-- What has been read of a quoted scalar since its last character. -/
inductive Pending where
  /-- Gaps within a line, the last one first. -/
  | gaps (cs : List Char)
  /-- The end of a line, which counts for nothing if it was escaped, and the line breaks behind
  it, the last one first. -/
  | lines (first : Option Char) (more : List Char)
deriving DecidableEq, Repr

def Pending.text : Pending → List Char
  | .gaps cs => cs.reverse
  | .lines first more =>
    (match first with
      | none => []
      | some b => if b ≠ '\n' then [b] else if more.isEmpty then [' '] else []) ++ more.reverse

/-- The text that the parts of a quoted scalar come to. Halves of surrogate pairs have none. -/
def foldAtoms (pending : Pending) : List Atom → List Char
  | [] => pending.text
  | .char c :: rest => pending.text ++ c :: foldAtoms (.gaps []) rest
  | .half :: rest => pending.text ++ foldAtoms (.gaps []) rest
  | .joint :: rest => pending.text ++ foldAtoms (.lines none []) rest
  | .gap c :: rest =>
    match pending with
    | .gaps cs => foldAtoms (.gaps (c :: cs)) rest
    | pending => foldAtoms pending rest
  | .lineBreak b :: rest =>
    match pending with
    | .gaps _ => foldAtoms (.lines (some b) []) rest
    | .lines first more => foldAtoms (.lines first (b :: more)) rest

def quotedScalar (double : Bool) (cs : List Char) : Except Fault (Option String × List Char) := do
  let (atoms, rest) ← if double then doubleAtoms cs else singleAtoms cs
  return (if atoms.contains .half then none else some (String.ofList (foldAtoms (.gaps []) atoms)),
    rest)

/-! ## Plain scalars -/

/-- Whether a character ends a word of a plain scalar in a flow collection. -/
def isFlowIndicator (c : Char) : Bool := ",?[]\x7b\x7d".toList.contains c

def endsKey (inFlow : Bool) (rest : List Char) : Bool :=
  rest.head?.all fun c => isWhite c || (inFlow && c != '?' && isFlowIndicator c)

/-- The characters of a plain scalar up to the next gap, and what follows them. -/
def plainWord (inFlow : Bool) : List Char → List Char × List Char
  | [] => ([], [])
  | c :: rest =>
    if isWhite c || (c == ':' && endsKey inFlow rest) || (inFlow && isFlowIndicator c) then
      ([], c :: rest)
    else
      let (word, after) := plainWord inFlow rest
      (c :: word, after)

/-- Blank lines in front of a text that begins at the start of a line or behind `column` spaces:
their line breaks, the column of what follows, and what follows. There are none if a mark between
documents is met. -/
def blankLines (column : Nat) : List Char → Option (List Char) × Nat × List Char
  | [] => (some [], column, [])
  | c :: rest =>
    if c = ' ' then blankLines (column + 1) rest
    else if !isBreak c then (some [], column, c :: rest)
    else if atMarker rest then (none, 0, rest)
    else
      let (breaks, column, after) := blankLines 0 rest
      (breaks.map (normalBreak c :: ·), column, after)

structure PlainGap where
  /-- What the gap counts for; a gap that counts for nothing ends the scalar. -/
  text : List Char
  /-- The column behind it, if there is a line break in it. -/
  column : Option Nat
  rest : List Char

def plainGap (cs : List Char) : PlainGap :=
  match cs.span (· == ' ') with
  | (spaces, c :: rest) =>
    if !isBreak c then { text := spaces, column := none, rest := c :: rest }
    else if atMarker rest then { text := [], column := some 0, rest }
    else
      let (breaks, column, after) := blankLines 0 rest
      { text := match breaks with
          | none => []
          | some more => (Pending.lines (some (normalBreak c)) more.reverse).text
        column := some column
        rest := after }
  | (spaces, []) => { text := spaces, column := none, rest := [] }

/-- The rest of a plain scalar behind a gap, what follows it, and whether a line break stands
between. Further lines must be indented by `indent` columns outside flow collections. -/
def plainFrom (inFlow : Bool) (indent : Nat) :
    (steps : Nat) → (gap : PlainGap) → List Char × List Char × Bool
  | 0, gap => ([], gap.rest, gap.column.isSome)
  | steps + 1, gap =>
    let (word, rest) := plainWord inFlow gap.rest
    if gap.text.isEmpty || gap.rest.head? == some '#' || word.isEmpty ||
        (!inFlow && gap.column.any (· < indent)) then
      ([], gap.rest, gap.column.isSome)
    else
      let (more, after) := plainFrom inFlow indent steps (plainGap rest)
      (gap.text ++ word ++ more, after)

def plainScalar (inFlow : Bool) (indent : Nat) (cs : List Char) : String × List Char × Bool :=
  let (word, rest) := plainWord inFlow cs
  let (more, after) := plainFrom inFlow indent cs.length (plainGap rest)
  (String.ofList (word ++ more), after)

/-! ## Block scalars -/

/-- What happens to the line breaks at the end of a block scalar. -/
inductive Chomping where
  /-- One is kept. -/
  | clip
  | strip
  | keep
deriving DecidableEq, Repr

def readChomping : List Char → Chomping × List Char
  | '+' :: rest => (.keep, rest)
  | '-' :: rest => (.strip, rest)
  | cs => (.clip, cs)

/-- The digit for the indentation, if there is one; zero is refused. -/
def readIndentation : List Char → Except Fault (Option Nat × List Char)
  | c :: rest =>
    if c == '0' then .error .malformed
    else if Text.isDigit c then .ok (some (c.toNat - 0x30), rest)
    else .ok (none, c :: rest)
  | [] => .ok (none, [])

/-- The marks behind the sign of a block scalar, in either order. -/
def blockMarks (cs : List Char) : Except Fault (Chomping × Option Nat × List Char) := do
  match readChomping cs with
  | (.clip, _) =>
    let (indentation, rest) ← readIndentation cs
    if indentation.isSome then
      let (chomping, rest) := readChomping rest
      return (chomping, indentation, rest)
    else return (.clip, none, rest)
  | (chomping, rest) =>
    let (indentation, rest) ← readIndentation rest
    return (chomping, indentation, rest)

/-- The line behind the end of a line that may only hold spaces and a comment. -/
def endOfLine (cs : List Char) : Except Fault (List Char) :=
  let cs := cs.dropWhile (· == ' ')
  let cs := if cs.head? = some '#' then cs.dropWhile (!isBreak ·) else cs
  match cs with
  | [] => .ok []
  | c :: rest => if isBreak c then .ok rest else .error .malformed

/-- The blank lines in front of a block scalar: their line breaks, the widest indentation on the
way, the column of what follows, and what follows. -/
def leadingLines (column widest : Nat) : List Char → List Char × Nat × Nat × List Char
  | [] => ([], widest, column, [])
  | c :: rest =>
    if c = ' ' then leadingLines (column + 1) (max widest (column + 1)) rest
    else if isBreak c then
      let (breaks, after) := leadingLines 0 widest rest
      (normalBreak c :: breaks, after)
    else ([], widest, column, c :: rest)

/-- The blank lines in front of a line of a block scalar: their line breaks, the column of what
follows, and what follows. No more than the indentation is skipped. -/
def blockBreaks (indent column : Nat) : List Char → List Char × Nat × List Char
  | [] => ([], column, [])
  | c :: rest =>
    if c = ' ' ∧ column < indent then blockBreaks indent (column + 1) rest
    else if isBreak c then
      let (breaks, after) := blockBreaks indent 0 rest
      (normalBreak c :: breaks, after)
    else ([], column, c :: rest)

/-- The lines of a block scalar, what follows them, and the line breaks at their end: the one of the
last line, and those behind it. -/
def blockLines (folded : Bool) (indent : Nat) :
    (steps : Nat) → (breaks : List Char) → (column : Nat) → List Char →
      List Char × List Char × List Char × List Char
  | 0, breaks, _, cs => ([], cs, [], breaks)
  | steps + 1, breaks, column, cs =>
    if column ≠ indent ∨ cs.isEmpty then ([], cs, [], breaks)
    else
      let (line, rest) := cs.span (!isBreak ·)
      let lineBreak := rest.head?.toList.map normalBreak
      let (more, column, after) := blockBreaks indent 0 rest.tail
      if column ≠ indent ∨ after.isEmpty then (breaks ++ line, after, lineBreak, more)
      else
        let isText (cs : List Char) : Bool := !cs.head?.any isGap
        let joint :=
          if folded && lineBreak == ['\n'] && isText line && isText after then
            (if more.isEmpty then [' '] else [])
          else lineBreak
        let (text, ending) := blockLines folded indent steps more column after
        (breaks ++ line ++ joint ++ text, ending)

/-- A block scalar behind its sign, and what follows it. It is indented by at least `least` columns;
if the indentation is not given, the first line tells it. -/
def blockScalar (folded : Bool) (least : Nat) (cs : List Char) :
    Except Fault (String × List Char) := do
  let (chomping, indentation, rest) ← blockMarks cs
  if !rest.head?.all fun c => c == ' ' || isBreak c then throw .malformed
  let body ← endOfLine rest
  let (indent, breaks, column, start) := match indentation with
    | some n =>
      let indent := least + n - 1
      (indent, blockBreaks indent 0 body)
    | none =>
      let (breaks, widest, column, start) := leadingLines 0 0 body
      (max least widest, breaks, column, start)
  let (text, after, last, more) := blockLines folded indent body.length breaks column start
  let ending := match chomping with
    | .strip => []
    | .clip => last
    | .keep => last ++ more
  return (String.ofList (text ++ ending), after)

end EndpointAudit.Yaml
