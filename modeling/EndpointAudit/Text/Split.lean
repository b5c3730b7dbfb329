/-!
# Parts of a text

Searching, cutting and replacing by single characters. Everything is stated on the list of
characters, so lengths and positions count code points.
-/

namespace EndpointAudit.Text

/-- Whether `part` occurs in a list of characters as a contiguous block. -/
def occursIn (part : List Char) : List Char → Bool
  | [] => part.isEmpty
  | c :: cs => part.isPrefixOf (c :: cs) || occursIn part cs

def contains (text part : String) : Bool :=
  occursIn part.toList text.toList

def startsWith (text start : String) : Bool :=
  start.toList.isPrefixOf text.toList

def endsWith (text ending : String) : Bool :=
  ending.toList.isSuffixOf text.toList

def replaceChar (old new : Char) (text : String) : String :=
  String.ofList (text.toList.map fun c => if c = old then new else c)

/-- What follows the last occurrence of `sep`, or everything if there is none. -/
def afterLast (sep : Char) (text : String) : String :=
  String.ofList (text.toList.reverse.takeWhile (· ≠ sep)).reverse

/-- The parts of a list between the occurrences of `sep`; a list without one is its only part. -/
def splitAtChar (sep : Char) : List Char → List (List Char)
  | [] => [[]]
  | c :: cs =>
    if c = sep then [] :: splitAtChar sep cs
    else match splitAtChar sep cs with
      | [] => [[c]]
      | part :: parts => (c :: part) :: parts

def splitOn (sep : Char) (text : String) : List String :=
  (splitAtChar sep text.toList).map String.ofList

/-- The first `n` elements of a list, where a negative `n` counts back from the end. -/
def takeSigned {α : Type} (n : Int) (xs : List α) : List α :=
  if 0 ≤ n then xs.take n.toNat else xs.take (xs.length - n.natAbs)

def dropLast (n : Nat) (text : String) : String :=
  String.ofList (text.toList.take (text.toList.length - n))

def join (sep : String) (parts : List String) : String :=
  sep.intercalate parts

end EndpointAudit.Text
