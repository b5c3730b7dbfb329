import EndpointAudit.Filter.Coverage

/-!
# Remembered coverage

Within one scan every filter type is analysed once. Filters are followed to the filters they make
use of, in the order in which they are met, so that filters may refer to each other in a circle.
-/

namespace EndpointAudit.Filter

/-- What a scan has found out about filters so far, in order, and what it has told on the way. -/
structure Memo extends Log where
  known : List (String × Coverage) := []
deriving DecidableEq, Repr

/-- Analyses filters with the memory of one scan. What was found before an error stays known. -/
abbrev Analysis := ExceptT ScanError (StateM Memo)

namespace Memo

def types (memo : Memo) : List String := memo.known.map (·.1)

def tell (memo : Memo) (told : List Notice) : Memo :=
  { memo with toLog := memo.toLog ++ .ofNotices told }

def add (memo : Memo) (filterType : String) (found : Coverage) (told : List Notice) : Memo :=
  { memo.tell told with known := memo.known ++ [(filterType, found)] }

@[simp] theorem tell_known (memo : Memo) (told : List Notice) :
    (memo.tell told).known = memo.known := rfl

@[simp] theorem add_known (memo : Memo) (filterType : String) (found : Coverage)
    (told : List Notice) :
    (memo.add filterType found told).known = memo.known ++ [(filterType, found)] := rfl

theorem types_add (memo : Memo) (filterType : String) (found : Coverage) (told : List Notice) :
    (memo.add filterType found told).types = memo.types ++ [filterType] := by
  simp [types]

@[simp] theorem add_toLog (memo : Memo) (filterType : String) (found : Coverage)
    (told : List Notice) :
    (memo.add filterType found told).toLog = memo.toLog ++ .ofNotices told := rfl

end Memo

/-- What is known of a filter type after it has been analysed, if need be. -/
def coverage (cp : ClassPath) (settings : Settings) (filterType : String) : Analysis Coverage := do
  let memo ← get
  match Assoc.get? filterType memo.known with
  | some found => return found
  | none =>
    let (found, told) ← analyze cp settings filterType
    set (memo.add filterType found told)
    return found

def classNames (pool : Pool) : List String :=
  pool.slots.toList.filterMap fun
    | some (.classRef name) => (pool.utf8 name.toNat).toOption.map Naming.dotted
    | _ => none

def entryFiles (entry : ClassPathEntry) : List Bytes :=
  match entry.content with
  | .folder files _ => files.map (·.2)
  | .archive members => members.map (·.2)
  | _ => []

def referencedTypes (cp : ClassPath) : List String :=
  (cp.entries.flatMap entryFiles).flatMap fun bytes =>
    match ClassFile.parse bytes with
    | .ok cls => classNames cls.pool
    | .error _ => []

/-- Asks for the filter types that are waiting, and those they make use of, each once and in order.
`found` is what has been found so far; at most `steps` types are asked for. -/
def visitWith {m : Type → Type} [Monad m] (ask : String → m Coverage) :
    (steps : Nat) → (waiting : List String) → (found : List (String × Coverage)) →
      m (List (String × Coverage))
  | 0, _, found => return found
  | steps + 1, waiting, found =>
    match waiting.dropWhile (Assoc.hasKey · found) with
    | [] => return found
    | filterType :: rest => do
      let result ← ask filterType
      let found := found ++ [(filterType, result)]
      visitWith ask steps
        (rest ++ result.delegates.filter fun d => !Assoc.hasKey d found) found

def visitAll (cp : ClassPath) (settings : Settings) :
    (steps : Nat) → (waiting : List String) → (found : List (String × Coverage)) →
      Analysis (List (String × Coverage)) :=
  visitWith (coverage cp settings)

/-- How many filter types a walk from the given ones can meet: each is given at the start or
referred to by a class. -/
def visitBound (cp : ClassPath) (filterTypes : List String) : Nat :=
  filterTypes.length + (referencedTypes cp).length

/-- Analyses filter types and every filter that they make use of, directly or not. -/
def coverageOfAll (cp : ClassPath) (settings : Settings) (filterTypes : List String) :
    Analysis (List (String × Coverage)) :=
  visitAll cp settings (visitBound cp filterTypes) filterTypes []

end EndpointAudit.Filter
