import EndpointAudit.Discovery.Basic
import EndpointAudit.Endpoint.Merge
import EndpointAudit.Filter.Memo
import EndpointAudit.Report.Partition

/-!
# Scanning a class path

A scan discovers endpoints and configuration methods, classifies the filter chain that each
configuration method builds, merges what it finds into the endpoints and groups them into a report.
What cannot be analysed is skipped with a notice.
-/

namespace EndpointAudit

/-- A configuration method's chain and the filters in it. -/
structure ChainAnalysis where
  classification : Chain.Classification
  filters : List Filter.Coverage := []
deriving DecidableEq, Repr

namespace ChainAnalysis

/-- The classification of the chain that a method configures, or the notice that there is none. -/
def classification? (cp : ClassPath) (settings : Settings) (c : ConfigMethod) :
    Except ScanError (Except Notice Chain.Classification) :=
  match cp.trace c.declaringType c.methodName c.descriptor settings.inlineLambdas with
  | .ok trace => .ok (.ok (Chain.classify trace))
  | .error (.unavailable reason) => .ok (.error (.configUnavailable c.name reason))
  | .error (.fatal e) => .error e

/-- The analysis of a configuration method, if it can be analysed. -/
def prepare (cp : ClassPath) (settings : Settings) (c : ConfigMethod) :
    Filter.Analysis (Option ChainAnalysis) := do
  match ← classification? cp settings c with
  | .error notice =>
    modify (·.tell [notice])
    return none
  | .ok classification =>
    modify (·.tell [.chainClassified c.name classification.features.toList])
    let found ← Filter.coverageOfAll cp settings classification.filters
    return some { classification, filters := found.map (·.2) }

/-- Endpoint records after an analysis has been merged into them, and the number of times a filter
guards a path. -/
def apply (settings : Settings) (a : ChainAnalysis) (records : List EndpointRecord) :
    List EndpointRecord × Nat :=
  EndpointRecord.correlate settings a.filters
    (records.map (·.mergeChain settings a.classification))

def applyAll (settings : Settings) (analyses : List ChainAnalysis)
    (records : List EndpointRecord) : List EndpointRecord :=
  analyses.foldl (fun rs a => (a.apply settings rs).1) records

/-- Endpoint records after all configuration methods that can be analysed. They are prepared one
after the other here, and may be by workers in any order. -/
def analyzeConfigs (cp : ClassPath) (settings : Settings) (configs : List ConfigMethod)
    (records : List EndpointRecord) : Filter.Analysis (List EndpointRecord) := do
  let analyses ← configs.mapM (prepare cp settings)
  return applyAll settings (analyses.filterMap id) records

end ChainAnalysis

inductive ScanFailure where
  | fatal (error : ScanError)
  | invalid (error : PartitionError)
deriving DecidableEq, Repr

/-- The outcome of a scan: the report or the failure, the progress shown on the way, and what was
told. -/
structure ScanOutcome extends Log where
  result : Except ScanFailure Report
  progress : List String

namespace Scan

def buildStep : String := "build_report"

/-- The report on records, checked against them. -/
def buildReport (now : Moment) (records : List EndpointRecord) : Except PartitionError Report := do
  let report := Report.ofRecords now records
  report.checkPartition records
  return report

def foundLines (records : List EndpointRecord) (configs : List ConfigMethod) : List String :=
  let endpoints := records.length
  let chains := configs.length
  let labels := Report.duplicateLabels records
  s!"  Found {endpoints} endpoints, {chains} security configurations" ::
    if labels.isEmpty then []
    else ["  Endpoints mapped more than once: " ++ Text.join ", " labels]

def reportLine (r : Report) : String :=
  let endpoints := r.totalEndpoints
  let expressions := r.uniqueExpressions
  s!"  {endpoints} endpoints under {expressions} authorization expressions"

def filtersLine (memo : Filter.Memo) : String :=
  let count := memo.known.length
  s!"  Analyzed {count} custom filters"

/-- The end of a scan: the report on the analysed records. -/
def finish (now : Moment) (records : List EndpointRecord) (progress : List String)
    (log : Log) : ScanOutcome :=
  match buildReport now records with
  | .ok report =>
    { toLog := log, result := .ok report, progress := progress ++ [reportLine report] }
  | .error e =>
    { toLog := log ++ .ofNotices [.invalidOutput buildStep e.message]
      result := .error (.invalid e), progress }

def run (cp : ClassPath) (package : String) (settings : Settings) (now : Moment) : ScanOutcome :=
  let endpoints := Discovery.endpoints cp package
  let configs := Discovery.configMethods cp package
  let progress := ["Discovering endpoints and security configuration..."]
  let log := endpoints.toLog ++ configs.toLog
  match configs.error.or endpoints.error with
  | some e => { toLog := log, result := .error (.fatal e), progress }
  | none =>
    let progress := progress ++ foundLines endpoints.items configs.items
    if configs.items.isEmpty then finish now endpoints.items progress log
    else
      let progress := progress ++ ["Analyzing security configuration..."]
      match (ChainAnalysis.analyzeConfigs cp settings configs.items endpoints.items).run {} with
      | (.error e, memo) =>
        { toLog := log ++ memo.toLog, result := .error (.fatal e), progress }
      | (.ok records, memo) =>
        finish now records (progress ++ [filtersLine memo]) (log ++ memo.toLog)

end Scan

end EndpointAudit
