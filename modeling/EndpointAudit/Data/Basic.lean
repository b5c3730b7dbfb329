import EndpointAudit.Bytes.Basic
import EndpointAudit.Moment

/-!
# Documents and data

A document is what a report is written as; data is what a report file holds when it is read. Both
are trees of plain values. Data has more kinds of leaf, since a file can hold numbers with a
fraction and, in one of the two formats, moments and byte strings that are no texts.
-/

namespace EndpointAudit

/-- A tree of values to be written. -/
inductive Doc where
  | null
  | bool (value : Bool)
  | int (value : Int)
  | text (value : String)
  | list (items : List Doc)
  | map (entries : List (String × Doc))
deriving Repr, BEq, Inhabited

/-- A tree of values as read. A number with a fraction is kept as the bits of a double. Only
entries under a text as key are kept of a mapping, as no other key can name a field. -/
inductive Data where
  | null
  | bool (value : Bool)
  | int (value : Int)
  | float (bits : UInt64)
  | text (value : String)
  /-- A string that is no text, as halves of surrogate pairs stand alone in it. -/
  | brokenText
  | bytes (value : Bytes)
  | moment (value : Moment)
  | list (items : List Data)
  | map (entries : List (String × Data))
deriving Repr, Inhabited

/-! ## Equality of data -/

mutual

protected def Data.beq : Data → Data → Bool
  | .null, .null => true
  | .bool a, .bool b => a == b
  | .int a, .int b => a == b
  | .float a, .float b => a == b
  | .text a, .text b => a == b
  | .brokenText, .brokenText => true
  | .bytes a, .bytes b => a == b
  | .moment a, .moment b => a == b
  | .list as, .list bs => Data.beqItems as bs
  | .map as, .map bs => Data.beqEntries as bs
  | _, _ => false

protected def Data.beqItems : List Data → List Data → Bool
  | [], [] => true
  | a :: as, b :: bs => a.beq b && Data.beqItems as bs
  | _, _ => false

protected def Data.beqEntries : List (String × Data) → List (String × Data) → Bool
  | [], [] => true
  | (k, a) :: as, (l, b) :: bs => k == l && a.beq b && Data.beqEntries as bs
  | _, _ => false

end

mutual

theorem Data.beq_iff : ∀ {a b : Data}, a.beq b = true ↔ a = b
  | .list as, b => by cases b <;> simp [Data.beq, Data.beqItems_iff]
  | .map as, b => by cases b <;> simp [Data.beq, Data.beqEntries_iff]
  | .null, b | .bool _, b | .int _, b | .float _, b | .text _, b | .brokenText, b | .bytes _, b
  | .moment _, b => by cases b <;> simp [Data.beq]

theorem Data.beqItems_iff : ∀ {as bs : List Data}, Data.beqItems as bs = true ↔ as = bs
  | [], bs => by cases bs <;> simp [Data.beqItems]
  | a :: as, bs => by cases bs <;> simp [Data.beqItems, Data.beq_iff, Data.beqItems_iff]

theorem Data.beqEntries_iff :
    ∀ {as bs : List (String × Data)}, Data.beqEntries as bs = true ↔ as = bs
  | [], bs => by cases bs <;> simp [Data.beqEntries]
  | (k, a) :: as, bs => by
    cases bs with
    | nil => simp [Data.beqEntries]
    | cons entry bs =>
      obtain ⟨l, b⟩ := entry
      simp [Data.beqEntries, Data.beq_iff, Data.beqEntries_iff]

end

instance : DecidableEq Data := fun a b => decidable_of_iff (a.beq b = true) Data.beq_iff

/-! ## Documents as data -/

mutual

def Doc.toData : Doc → Data
  | .null => .null
  | .bool b => .bool b
  | .int n => .int n
  | .text s => .text s
  | .list items => .list (toDataItems items)
  | .map entries => .map (toDataEntries entries)

def Doc.toDataItems : List Doc → List Data
  | [] => []
  | d :: ds => d.toData :: toDataItems ds

def Doc.toDataEntries : List (String × Doc) → List (String × Data)
  | [] => []
  | (k, d) :: ds => (k, d.toData) :: toDataEntries ds

end

namespace Data

/-- The value under a key of a mapping; of several the last one counts. -/
def get? (key : String) (entries : List (String × Data)) : Option Data :=
  (entries.reverse.find? (·.1 == key)).map (·.2)

/-- Whether a number has at most sixty-four bits, its sign included. -/
def fitsWord (n : Int) : Bool := -0x8000000000000000 ≤ n && n < 0x8000000000000000

end Data

end EndpointAudit
