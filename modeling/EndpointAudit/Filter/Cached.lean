import EndpointAudit.ClassPath.Cache
import EndpointAudit.Filter.Memo

/-!
# Coverage of filters from parsed classes

The analysis of filters with both memories of a scan: the filter types that have been analysed, and
the classes that have been parsed for them.
-/

namespace EndpointAudit.Filter

section Handlers

variable {m : Type → Type} [Monad m] [MonadExceptOf LoadError m] {α : Type}

/-- Goes on with something else, unless a type is missing or the scan cannot go on. -/
def goOn (next : Unavailable → m α) : LoadError → m α
  | .fatal e => throw (.fatal e)
  | .unavailable (.typeNotFound t) => throw (.unavailable (.typeNotFound t))
  | .unavailable reason => next reason

/-- Makes do with nothing known of a filter type that cannot be analysed. -/
def makeDo (filterType : String) : LoadError → m (Coverage × List Notice)
  | .unavailable reason => return ({ filterType }, [.filterUnavailable filterType reason])
  | .fatal e => throw (.fatal e)

end Handlers

def traceFirstCached (cp : ClassPath) (inlineLambdas : Bool) (filterType : String)
    (reason : Unavailable) : List String → Loading (List Event)
  | [] => throw (.unavailable reason)
  | methodName :: rest =>
    tryCatch (cp.traceCached filterType methodName none inlineLambdas)
      (goOn fun reason => traceFirstCached cp inlineLambdas filterType reason rest)

def requestTraceCached (cp : ClassPath) (settings : Settings) (filterType : String) :
    Loading (List Event) :=
  traceFirstCached cp settings.inlineLambdas filterType (.noFilterMethod filterType)
    settings.filterMethods

def fieldStringsCached (cp : ClassPath) (filterType : String) :
    Loading (List (String × String)) :=
  tryCatch (do return Trace.fieldStrings (← cp.loadCached filterType)) fun _ => return []

/-- What is known of a filter type, and the notice on it. Classes are kept whatever comes of it. -/
def analyzeCached (cp : ClassPath) (settings : Settings) (filterType : String) :
    Loading (Coverage × List Notice) :=
  tryCatch (do
    let trace ← requestTraceCached cp settings filterType
    let fields ← fieldStringsCached cp filterType
    return (.ofTrace filterType trace fields, [.filterAnalyzed filterType (matchPaths trace)]))
    (makeDo filterType)

structure Memories where
  memo : Memo := {}
  cache : ClassCache := {}

abbrev CachedAnalysis := ExceptT LoadError (StateM Memories)

/-- What is known of a filter type after it has been analysed, if need be. -/
def coverageCached (cp : ClassPath) (settings : Settings) (filterType : String) :
    CachedAnalysis Coverage := do
  let memories ← get
  match Assoc.get? filterType memories.memo.known with
  | some found => return found
  | none =>
    let (outcome, cache) := (analyzeCached cp settings filterType).run memories.cache
    set { memories with cache }
    let (found, told) ← outcome
    modify fun memories => { memories with memo := memories.memo.add filterType found told }
    return found

def coverageOfAllCached (cp : ClassPath) (settings : Settings) (filterTypes : List String) :
    CachedAnalysis (List (String × Coverage)) :=
  visitWith (coverageCached cp settings) (visitBound cp filterTypes) filterTypes []

end EndpointAudit.Filter
