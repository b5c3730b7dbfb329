import EndpointAudit.Text.Printable
import EndpointAudit.Text.Digits
import EndpointAudit.Text.Split

/-!
# Quoted texts

The one-line form in which messages show a text: between single quotes, or between double quotes
if it holds single quotes and no double ones. Backslashes and the quote in use are escaped, and so
is every character that is not printable.
-/

namespace EndpointAudit.Text

def quoteFor (text : List Char) : Char :=
  if text.contains '\'' && !text.contains '"' then '"' else '\''

def quotedChar (quote c : Char) : List Char :=
  if c = quote || c = '\\' then ['\\', c]
  else if c = '\n' then ['\\', 'n']
  else if c = '\r' then ['\\', 'r']
  else if c = '\t' then ['\\', 't']
  else if isPrintable c then [c]
  else if c.toNat < 0x100 then '\\' :: 'x' :: hex 2 c.toNat
  else if c.toNat < 0x10000 then '\\' :: 'u' :: hex 4 c.toNat
  else '\\' :: 'U' :: hex 8 c.toNat

/-- A text between quotes on one line. -/
def quoted (text : String) : String :=
  let quote := quoteFor text.toList
  String.ofList (quote :: text.toList.flatMap (quotedChar quote) ++ [quote])

def quotedList (texts : List String) : String :=
  "[" ++ join ", " (texts.map quoted) ++ "]"

/-- A message with the words of its cause, if there are any. -/
def withWords (message : String) (words : Option String) : String :=
  words.elim message (message ++ ": " ++ ·)

end EndpointAudit.Text
