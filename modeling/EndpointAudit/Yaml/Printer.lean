import EndpointAudit.Data.Basic
import EndpointAudit.Yaml.Schema

/-!
# Writing YAML

Documents as YAML in block style. A text is written plain if it can be and would be read back as a
text, otherwise between single quotes, or between double quotes if it needs escapes. Long texts
are folded where a line has passed eighty columns.
-/

namespace EndpointAudit.Yaml

def lineWidth : Nat := 80

/-- Whether a character ends a line. -/
def isBreak (c : Char) : Bool :=
  c == '\n' || c.toNat == 0x85 || c.toNat == 0x2028 || c.toNat == 0x2029

/-- Whether a character needs an escape wherever it stands. -/
def isSpecial (c : Char) : Bool :=
  let n := c.toNat
  !(c == '\n' || (0x20 ≤ n && n ≤ 0x7E) || n == 0x85 || (0xA0 ≤ n && n ≤ 0xD7FF) ||
    (0xE000 ≤ n && n ≤ 0xFFFD && n != 0xFEFF) || (0x10000 ≤ n && n < 0x10FFFF))

/-- Whether two neighbours in a list satisfy `p` and `q`. -/
def hasNeighbours (p q : Char → Bool) : List Char → Bool
  | a :: b :: rest => (p a && q b) || hasNeighbours p q (b :: rest)
  | _ => false

/-- Whether a character begins something other than a plain scalar. -/
def isIndicator (c : Char) : Bool :=
  "#,[]\x7b\x7d&*!|>'\"%@`".toList.contains c

/-- Whether a text begins with a dash or a question mark that stands alone. -/
def startsEntry : List Char → Bool
  | [c] => c == '-' || c == '?'
  | c :: d :: _ => (c == '-' || c == '?') && d == ' '
  | [] => false

/-- Whether a text has a colon that would end a key, or a sign that would begin a comment. -/
def hasDelimiter (cs : List Char) : Bool :=
  cs.getLast? == some ':' || hasNeighbours (· == ':') (· == ' ') cs ||
    hasNeighbours (· == ' ') (· == '#') cs

def isPlain (text : String) : Bool :=
  let cs := text.toList
  tagOf text == .text && !Text.startsWith text "---" && !Text.startsWith text "..." &&
    !cs.head?.any isIndicator && cs.head? != some ' ' && cs.getLast? != some ' ' &&
    !startsEntry cs && !hasDelimiter cs && !cs.any isBreak && !cs.any isSpecial

def isSingleQuotable (text : String) : Bool :=
  let cs := text.toList
  !cs.any isSpecial && !hasNeighbours (· == ' ') isBreak cs && !hasNeighbours isBreak (· == ' ') cs

def blanks (n : Nat) : List Char := List.replicate n ' '

/-! ## Plain and single-quoted text -/

inductive RunKind where
  | word
  | space
  | lineBreak
deriving DecidableEq, Repr

def RunKind.of (c : Char) : RunKind :=
  if c = ' ' then .space else if isBreak c then .lineBreak else .word

def runsOf (cs : List Char) : List (List Char) :=
  cs.splitBy fun a b => RunKind.of a == RunKind.of b

structure Written where
  chars : List Char
  column : Nat

def Written.add (w : Written) (cs : List Char) : Written :=
  { chars := w.chars ++ cs, column := w.column + cs.length }

def Written.newLine (w : Written) (indent : Nat) : Written :=
  { chars := w.chars ++ '\n' :: blanks indent, column := indent }

/-- Line breaks of a quoted text. A plain line feed counts only if it is written twice. -/
def Written.addBreaks (w : Written) (indent : Nat) (cs : List Char) : Written :=
  { chars := w.chars ++ (if cs.head? = some '\n' then '\n' :: cs else cs) ++ blanks indent
    column := indent }

def doubleQuotes (cs : List Char) : List Char :=
  cs.flatMap fun c => if c = '\'' then ['\'', '\''] else [c]

/-- The runs of a text after what is written. A single space between other runs gives way to a new
line once the line is full. `inside` tells whether there is a run in front. -/
def writeRuns (indent : Nat) (inside : Bool) (w : Written) : List (List Char) → Written
  | [] => w
  | run :: rest =>
    let w := match RunKind.of (run.headD 'x') with
      | .word => w.add (doubleQuotes run)
      | .lineBreak => w.addBreaks indent run
      | .space =>
        if run.length = 1 ∧ lineWidth < w.column ∧ inside ∧ !rest.isEmpty then w.newLine indent
        else w.add run
    writeRuns indent true w rest

def plain (indent column : Nat) (cs : List Char) : List Char :=
  (cs.splitBy fun a b => (a == ' ') == (b == ' ')).foldl (fun w run =>
    if run = [' '] ∧ lineWidth < w.column then w.newLine indent else w.add run)
    ({ chars := [], column } : Written) |>.chars

def singleQuoted (indent column : Nat) (cs : List Char) : List Char :=
  '\'' :: (writeRuns indent false { chars := [], column := column + 1 } (runsOf cs)).chars ++ ['\'']

/-! ## Double-quoted text -/

/-- Whether a character stands for itself between double quotes. -/
def isLiteral (c : Char) : Bool :=
  let n := c.toNat
  c != '"' && c != '\\' && n != 0x2028 && n != 0x2029 && n != 0xFEFF &&
    ((0x20 ≤ n && n ≤ 0x7E) || (0xA0 ≤ n && n ≤ 0xD7FF) || (0xE000 ≤ n && n ≤ 0xFFFD))

def shortEscapes : List (Nat × Char) :=
  [(0x00, '0'), (0x07, 'a'), (0x08, 'b'), (0x09, 't'), (0x0A, 'n'), (0x0B, 'v'), (0x0C, 'f'),
    (0x0D, 'r'), (0x1B, 'e'), (0x22, '"'), (0x5C, '\\'), (0x85, 'N'), (0xA0, '_'), (0x2028, 'L'),
    (0x2029, 'P')]

def escapeOf (c : Char) : List Char :=
  match shortEscapes.lookup c.toNat with
  | some letter => ['\\', letter]
  | none =>
    if c.toNat ≤ 0xFF then '\\' :: 'x' :: Text.hexUpper 2 c.toNat
    else if c.toNat ≤ 0xFFFF then '\\' :: 'u' :: Text.hexUpper 4 c.toNat
    else '\\' :: 'U' :: Text.hexUpper 8 c.toNat

/-- A line break that does not count, with a backslash to keep a space behind it. -/
def Written.fold (w : Written) (indent : Nat) (next : Option Char) : Written :=
  let w := (w.add ['\\']).newLine indent
  if next = some ' ' then w.add ['\\'] else w

/-- Characters between double quotes, after what is written. A full line is folded in front of a
space and around an escape, but neither in front of the first character nor behind the last but
one. `escaped` tells whether the character in front, if there is one, was escaped. -/
def writeEscaped (indent : Nat) (inside escaped : Bool) (w : Written) : List Char → Written
  | [] => w
  | c :: rest =>
    let foldable := inside && !rest.isEmpty
    if isLiteral c then
      let w := if foldable && (c == ' ' || escaped) && lineWidth < w.column then
          w.fold indent (some c)
        else w
      writeEscaped indent true false (w.add [c]) rest
    else
      let w := w.add (escapeOf c)
      let w := if foldable && lineWidth + 1 < w.column then w.fold indent rest.head? else w
      writeEscaped indent true true w rest

def doubleQuoted (indent column : Nat) (cs : List Char) : List Char :=
  '"' :: (writeEscaped indent false false { chars := [], column := column + 1 } cs).chars ++ ['"']

/-! ## Documents -/

/-- A text that begins in a column, its further lines indented. -/
def scalarText (indent column : Nat) (text : String) : List Char :=
  if isPlain text then plain indent column text.toList
  else if isSingleQuotable text then singleQuoted indent column text.toList
  else doubleQuoted indent column text.toList

def newLine (indent : Nat) : List Char := '\n' :: blanks indent

mutual

/-- A value behind its key or dash, which ends in front of `column`. `level` is the indentation of
what is around it; lists in mappings are not indented. -/
def renderValue (level column : Nat) (inMapping : Bool) : Doc → List Char
  | .null => " null".toList
  | .bool true => " true".toList
  | .bool false => " false".toList
  | .int n => ' ' :: (toString n).toList
  | .text s => ' ' :: scalarText (level + 2) (column + 1) s
  | .list [] => " []".toList
  | .map [] => " \x7b\x7d".toList
  | .list (d :: ds) =>
    if inMapping then newLine level ++ renderItems level (d :: ds)
    else ' ' :: renderItems (level + 2) (d :: ds)
  | .map (e :: es) =>
    (if inMapping then newLine (level + 2) else [' ']) ++ renderEntries (level + 2) (e :: es)

def renderItems (level : Nat) : List Doc → List Char
  | [] => []
  | [d] => '-' :: renderValue level (level + 1) false d
  | d :: ds => '-' :: renderValue level (level + 1) false d ++ newLine level ++ renderItems level ds

/-- The entries of a mapping. The keys are names of fields, which need no quotes. -/
def renderEntries (level : Nat) : List (String × Doc) → List Char
  | [] => []
  | [(k, d)] => k.toList ++ ':' :: renderValue level (level + k.length + 1) true d
  | (k, d) :: es =>
    k.toList ++ ':' :: renderValue level (level + k.length + 1) true d ++ newLine level ++
      renderEntries level es

end

/-- A document without the line feed at its end. -/
def render : Doc → List Char
  | .map (e :: es) => renderEntries 0 (e :: es)
  | .list (d :: ds) => renderItems 0 (d :: ds)
  | d => (renderValue 0 0 false d).drop 1

def print (d : Doc) : String := String.ofList (render d ++ ['\n'])

end EndpointAudit.Yaml
