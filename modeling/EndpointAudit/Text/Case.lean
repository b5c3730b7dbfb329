/-!
# Letter case for ASCII searches

Case is folded only in order to look for ASCII words in a text, so only characters whose
folded form has an ASCII letter in it matter. Beside the ASCII letters these are two characters
that fold to a small letter, and a few letters and ligatures that fold to capitals, some of them
together with a combining mark.
-/

namespace EndpointAudit.Text

/-- The small form of a character, as far as it can hold an ASCII letter. -/
def lowerChar (c : Char) : List Char :=
  match c.toNat with
  | 0x130 => ['i', Char.ofNat 0x307]
  | 0x212A => ['k']
  | _ => [c.toLower]

def upperChar (c : Char) : List Char :=
  match c.toNat with
  | 0xDF => ['S', 'S']
  | 0x131 => ['I']
  | 0x149 => [Char.ofNat 0x2BC, 'N']
  | 0x17F => ['S']
  | 0x1F0 => ['J', Char.ofNat 0x30C]
  | 0x1E96 => ['H', Char.ofNat 0x331]
  | 0x1E97 => ['T', Char.ofNat 0x308]
  | 0x1E98 => ['W', Char.ofNat 0x30A]
  | 0x1E99 => ['Y', Char.ofNat 0x30A]
  | 0x1E9A => ['A', Char.ofNat 0x2BE]
  | 0xFB00 => ['F', 'F']
  | 0xFB01 => ['F', 'I']
  | 0xFB02 => ['F', 'L']
  | 0xFB03 => ['F', 'F', 'I']
  | 0xFB04 => ['F', 'F', 'L']
  | 0xFB05 => ['S', 'T']
  | 0xFB06 => ['S', 'T']
  | _ => [c.toUpper]

/-- A text in small letters, exact for the search of ASCII words. -/
def lower (text : String) : String :=
  String.ofList (text.toList.flatMap lowerChar)

def upper (text : String) : String :=
  String.ofList (text.toList.flatMap upperChar)

end EndpointAudit.Text
