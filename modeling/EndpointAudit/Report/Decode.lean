import EndpointAudit.Data.Basic
import EndpointAudit.Moment.Reader
import EndpointAudit.Report.Basic

/-!
# Reports from data

Data is checked field by field, and all faults are collected, each with its place. Flags may also
be given as the numbers zero and one and as words. Fields that a report does not have are ignored,
and so are those that are computed from others.
-/

namespace EndpointAudit

/-- A step on the way to a value inside data. -/
inductive PlaceStep where
  | field (name : String)
  | item (index : Nat)
deriving DecidableEq, Repr

inductive DataFault where
  | notJson
  | missing
  | notMap
  | notText
  /-- A string or bytes that are no text. -/
  | notUnicode
  | notList
  | notMember
  | notFlag
  /-- A number or a text that stands for no flag. -/
  | flagValue
  | notMoment
  /-- A number that stands for no moment, or a moment of year 0. -/
  | momentValue
  /-- A text that stands for no moment. -/
  | momentText
deriving DecidableEq, Repr

structure PlacedFault where
  place : List PlaceStep
  fault : DataFault
deriving DecidableEq, Repr

/-- A value, or all that is wrong with it. -/
inductive Checked (α : Type) where
  | valid (value : α)
  | invalid (faults : List PlacedFault)
deriving Repr

namespace Checked

variable {α β : Type}

def fail (fault : DataFault) : Checked α := .invalid [⟨[], fault⟩]

def map (f : α → β) : Checked α → Checked β
  | .valid a => .valid (f a)
  | .invalid faults => .invalid faults

/-- A checked function on a checked value, with the faults of both. -/
def ap (f : Checked (α → β)) (x : Checked α) : Checked β :=
  match f, x with
  | .valid f, .valid a => .valid (f a)
  | .valid _, .invalid faults => .invalid faults
  | .invalid faults, .valid _ => .invalid faults
  | .invalid faults, .invalid more => .invalid (faults ++ more)

/-- The same, with a step put in front of every fault's place. -/
def under (step : PlaceStep) : Checked α → Checked α
  | .valid a => .valid a
  | .invalid faults => .invalid (faults.map fun f => { f with place := step :: f.place })

def all : List (Checked α) → Checked (List α)
  | [] => .valid []
  | x :: xs => (x.map fun a as => a :: as).ap (all xs)

end Checked

namespace Decode

def text : Data → Checked String
  | .text s => .valid s
  | .bytes b =>
    match Bytes.text? b with
    | some s => .valid s
    | none => .fail .notUnicode
  | .brokenText => .fail .notUnicode
  | _ => .fail .notText

def optional {α : Type} (check : Data → Checked α) : Data → Checked (Option α)
  | .null => .valid none
  | d => (check d).map some

/-- A member of a set of named values. -/
def member {α : Type} (ofName? : String → Option α) : Data → Checked α
  | .text s => named (some s)
  | .bytes b => named (Bytes.text? b)
  | .brokenText => .fail .notUnicode
  | _ => .fail .notMember
where
  named (name : Option String) : Checked α :=
    match name.bind ofName? with
    | some a => .valid a
    | none => .fail .notMember

def falseWords : List String := ["0", "off", "f", "false", "n", "no"]

def trueWords : List String := ["1", "on", "t", "true", "y", "yes"]

def flagOfInt (n : Int) : Checked Bool :=
  if n = 0 then .valid false else if n = 1 then .valid true else .fail .flagValue

/-- The flag that a word stands for, whether in capitals or not. -/
def flagOfWord (word : String) : Checked Bool :=
  let word := String.ofList (word.toList.map Char.toLower)
  if falseWords.contains word then .valid false
  else if trueWords.contains word then .valid true
  else .fail .flagValue

/-- A flag. Numbers beyond sixty-four bits and numbers with a fraction are none. -/
def flag : Data → Checked Bool
  | .bool b => .valid b
  | .int n => if Data.fitsWord n then flagOfInt n else .fail .notFlag
  | .float bits =>
    let x := Float.ofBits bits
    if x.floor == x && x.abs < 9223372036854775808.0 then flagOfInt x.toInt64.toInt
    else .fail .notFlag
  | .text s => flagOfWord s
  | .bytes b =>
    match Bytes.text? b with
    | some s => flagOfWord s
    | none => .fail .flagValue
  | .brokenText => .fail .notUnicode
  | _ => .fail .notFlag

/-- A moment, which must be later than year 0. -/
def moment : Data → Checked Moment
  | .moment m => .valid m
  | .text s => found .momentText (Moment.ofText? s)
  | .bytes b => found .momentText ((Bytes.text? b).bind Moment.ofText?)
  | .brokenText => .fail .notUnicode
  | .int n => if Data.fitsWord n then found .momentValue (Moment.ofElapsed? n) else .fail .notMoment
  | .float bits => found .momentValue (Moment.ofFloat? (Float.ofBits bits))
  | _ => .fail .notMoment
where
  found (otherwise : DataFault) (m : Option Moment) : Checked Moment :=
    match m with
    | some m => if m.year = 0 then .fail .momentValue else .valid m
    | none => .fail otherwise

def items {α : Type} (check : Data → Checked α) : Data → Checked (List α)
  | .list ds => .all (ds.zipIdx.map fun (d, n) => (check d).under (.item n))
  | _ => .fail .notList

def required {α : Type} (entries : List (String × Data)) (name : String)
    (check : Data → Checked α) : Checked α :=
  (match Data.get? name entries with
    | some d => check d
    | none => .fail .missing).under (.field name)

def withDefault {α : Type} (entries : List (String × Data)) (name : String) (default : α)
    (check : Data → Checked α) : Checked α :=
  match Data.get? name entries with
  | some d => (check d).under (.field name)
  | none => .valid default

def entry : Data → Checked Entry
  | .map es =>
    ((((((((((required es "path" text).map Entry.mk).ap
      (required es "verb" (member HttpVerb.ofName?))).ap
      (withDefault es "auth_expression" noAuthorization
        fun d => (text d).map Entry.expressionOf)).ap
      (withDefault es "api_key_required" false flag)).ap
      (withDefault es "api_key_header" none (optional text))).ap
      (withDefault es "basic_auth_required" false flag)).ap
      (withDefault es "session_management_policy" none
        (optional (member SessionPolicy.ofName?)))).ap
      (withDefault es "security_features" [] (items text))).ap
      (withDefault es "declaring_type" none (optional text))).ap
      (withDefault es "method_name" none (optional text))
  | _ => .fail .notMap

def group : Data → Checked Group
  | .map es =>
    ((required es "auth_expression" text).map Group.mk).ap
      (withDefault es "endpoints" [] (items entry))
  | _ => .fail .notMap

/-- The number of collections that lie one inside the other in a report: the report, its groups, a
group, its entries, an entry and its features. What is deeper in data is looked at only as to
whether it is a collection. -/
def depth : Nat := 6

def report : Data → Checked Report
  | .map es =>
    ((required es "generated_at" moment).map Report.mk).ap
      (withDefault es "groups" [] (items group))
  | _ => .fail .notMap

end Decode

end EndpointAudit
