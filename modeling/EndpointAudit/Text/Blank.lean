/-!
# Blank characters

The white space that is dropped from the ends of a text. The class is wider than the blanks of
ASCII: it has the four separators below the space, the next-line and no-break characters and the
typographic spaces, but neither the zero-width space nor the byte-order mark.
-/

namespace EndpointAudit.Text

def isBlank (c : Char) : Bool :=
  let n := c.toNat
  (0x09 ≤ n && n ≤ 0x0D) || (0x1C ≤ n && n ≤ 0x20) || n == 0x85 || n == 0xA0 || n == 0x1680 ||
    (0x2000 ≤ n && n ≤ 0x200A) || n == 0x2028 || n == 0x2029 || n == 0x202F || n == 0x205F ||
    n == 0x3000

/-- A list without its longest ending whose elements all satisfy `p`. -/
def dropEnd {α : Type} (p : α → Bool) (xs : List α) : List α :=
  (xs.reverse.dropWhile p).reverse

/-- A list without the elements at both ends that satisfy `p`. -/
def trim {α : Type} (p : α → Bool) (xs : List α) : List α :=
  dropEnd p (xs.dropWhile p)

def strip (text : String) : String :=
  String.ofList (trim isBlank text.toList)

def isBlankText (text : String) : Bool :=
  text.toList.all isBlank

end EndpointAudit.Text
