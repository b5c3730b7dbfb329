/-!
# Association lists in order of insertion

A list of pairs with at most one value for a key. A new key goes to the end; a key that is already
there keeps its place.
-/

namespace EndpointAudit.Assoc

variable {α β : Type} [BEq α]

def get? (key : α) (entries : List (α × β)) : Option β :=
  (entries.find? (·.1 == key)).map (·.2)

def hasKey (key : α) (entries : List (α × β)) : Bool :=
  entries.any (·.1 == key)

def put (key : α) (value : β) : List (α × β) → List (α × β)
  | [] => [(key, value)]
  | (k, v) :: rest => if k == key then (k, value) :: rest else (k, v) :: put key value rest

def putIfAbsent (key : α) (value : β) (entries : List (α × β)) : List (α × β) :=
  if hasKey key entries then entries else entries ++ [(key, value)]

/-- Adds to the number under a key, which counts as zero if there is none. -/
def bump (key : α) (entries : List (α × Nat)) : List (α × Nat) :=
  put key ((get? key entries).getD 0 + 1) entries

/-- How often each element occurs, in order of first occurrence. -/
def tally (xs : List α) : List (α × Nat) :=
  xs.foldl (fun counts x => bump x counts) []

end EndpointAudit.Assoc
