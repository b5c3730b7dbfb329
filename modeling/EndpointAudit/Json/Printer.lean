import EndpointAudit.Data.Basic

/-!
# Writing JSON

Documents as JSON text, on one line or indented by two spaces a level. Only quotes, backslashes
and control characters are escaped; everything else stands for itself.
-/

namespace EndpointAudit.Json

def escapedChar (c : Char) : List Char :=
  match c.toNat with
  | 0x22 => ['\\', '"']
  | 0x5C => ['\\', '\\']
  | 0x08 => ['\\', 'b']
  | 0x0C => ['\\', 'f']
  | 0x0A => ['\\', 'n']
  | 0x0D => ['\\', 'r']
  | 0x09 => ['\\', 't']
  | n => if n < 0x20 then '\\' :: 'u' :: Text.hex 4 n else [c]

def string (text : String) : String :=
  String.ofList ('"' :: text.toList.flatMap escapedChar ++ ['"'])

/-- What separates the parts of a JSON text. -/
structure Layout where
  /-- What stands in front of an item at a given level. -/
  lineBreak : Nat → String
  /-- What stands between a key and its value. -/
  colon : String

def Layout.compact : Layout := { lineBreak := fun _ => "", colon := ":" }

/-- Every item on a line of its own, indented by two spaces a level. -/
def Layout.indented : Layout :=
  { lineBreak := fun level => "\n" ++ String.ofList (List.replicate (2 * level) ' ')
    colon := ": " }

mutual

def render (layout : Layout) (level : Nat) : Doc → String
  | .null => "null"
  | .bool true => "true"
  | .bool false => "false"
  | .int n => toString n
  | .text s => string s
  | .list [] => "[]"
  | .list (d :: ds) =>
    "[" ++ renderItems layout (level + 1) (d :: ds) ++ layout.lineBreak level ++ "]"
  | .map [] => "\x7b\x7d"
  | .map (d :: ds) =>
    "\x7b" ++ renderEntries layout (level + 1) (d :: ds) ++ layout.lineBreak level ++ "\x7d"

def renderItems (layout : Layout) (level : Nat) : List Doc → String
  | [] => ""
  | [d] => layout.lineBreak level ++ render layout level d
  | d :: ds => layout.lineBreak level ++ render layout level d ++ "," ++ renderItems layout level ds

def renderEntries (layout : Layout) (level : Nat) : List (String × Doc) → String
  | [] => ""
  | [(k, d)] => layout.lineBreak level ++ string k ++ layout.colon ++ render layout level d
  | (k, d) :: ds =>
    layout.lineBreak level ++ string k ++ layout.colon ++ render layout level d ++ "," ++
      renderEntries layout level ds

end

def compact (d : Doc) : String := render .compact 0 d

def indented (d : Doc) : String := render .indented 0 d

end EndpointAudit.Json
