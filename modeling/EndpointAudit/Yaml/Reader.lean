import EndpointAudit.Yaml.Built
import EndpointAudit.Yaml.Node.Parse

/-!
# Reading YAML

The data in a file. As a node may lie inside itself, data is unfolded only to a given depth.
-/

namespace EndpointAudit.Yaml

/-- The number that a value stands for as a key, if it is whole. -/
def keyNumber? : Data → Option Int
  | .bool b => some b.toInt
  | .int n => some n
  | .float bits =>
    let x := Float.ofBits bits
    if x.floor == x && x.abs < 9223372036854775808.0 then some x.toInt64.toInt else none
  | _ => none

/-- Whether two values are the same key. Flags are the numbers zero and one. -/
def sameKey (a b : Data) : Bool :=
  match keyNumber? a, keyNumber? b with
  | some m, some n => m == n
  | none, none => a == b
  | _, _ => false

def distinctKeys (keys : List Data) : List Data :=
  keys.foldl (fun known key => if known.any (sameKey key) then known else known ++ [key]) []

/-- The data that a value is, with at most `depth` collections one inside the other; those further
inside are empty. -/
def dataOf (values : Array (Option Built)) : (depth : Nat) → NodeId → Data
  | depth, id =>
    match (values[id]?).join, depth with
    | none, _ => .null
    | some (.leaf d), _ => d
    | some (.map _), 0 => .map []
    | some _, 0 => .list []
    | some .unfilled, _ => .list []
    | some (.list items), depth + 1 => .list (items.map (dataOf values depth))
    | some (.map entries), depth + 1 =>
      .map (entries.filterMap fun (key, value) =>
        match (values[key]?).join with
        | some (.leaf (.text name)) => some (name, dataOf values depth value)
        | _ => none)
    | some (.set keys), depth + 1 => .list (distinctKeys (keys.map (dataOf values depth)))
    | some (.pairs entries), depth + 1 =>
      .list (entries.map fun (key, value) =>
        .list [dataOf values depth key, dataOf values depth value])

/-- The data in a YAML file, whose lines end in line feeds, with at most `depth` collections one
inside the other. An empty file holds null. -/
def read (depth : Nat) (text : String) : Except Fault Data := do
  match ← Document.ofTokens (Token.scan text) with
  | none => return .null
  | some document =>
    let values ← document.build
    return dataOf values depth document.root

end EndpointAudit.Yaml
