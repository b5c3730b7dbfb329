import EndpointAudit.Command.Request
import EndpointAudit.Logging
import EndpointAudit.Report.Render
import EndpointAudit.Scan

/-!
# Running commands

What a command prints, writes and logs, given the files it can see, the environment and the time.
The reader of YAML and the console belong to the host, and either may have its own reasons to give
up.
-/

namespace EndpointAudit.Command

/-- What commands rely on. -/
structure Host where
  yaml : String → Except Yaml.Fault Data := Yaml.read Decode.depth
  /-- The complaint of a console that does not print something. -/
  refusal? : Printed → Option String := fun _ => none

inductive Failure where
  /-- A report cannot be read. -/
  | unreadable (file : String) (error : ReadError)
  /-- The report of a scan does not fit what was found. -/
  | invalidReport (error : PartitionError)
  | scan (error : ScanError)
  | trace (reason : Unavailable)
  /-- The output is a folder. -/
  | outputIsFolder (file : String)
  /-- The console does not print something. -/
  | console (complaint : String)
deriving DecidableEq, Repr

structure Outcome extends Log where
  /-- What was printed on the console. -/
  prints : List Printed := []
  /-- What was written to the standard output. -/
  stdout : String := ""
  /-- The files that were written. -/
  written : List (String × String) := []
  logging : Logging := {}
  failure : Option Failure := none
deriving DecidableEq, Repr

def Outcome.failed (failure : Failure) : Outcome := { failure := some failure }

def UsageError.exitCode : Nat := 2

def Outcome.exitCode (o : Outcome) : Nat := if o.failure.isSome then 1 else 0

/-- More behind an outcome, unless that is a failure. -/
def Outcome.followedBy (first : Outcome) (second : Outcome) : Outcome :=
  if first.failure.isSome then first
  else
    { second with
      prints := first.prints ++ second.prints
      stdout := first.stdout ++ second.stdout
      written := first.written ++ second.written
      toLog := first.toLog ++ second.toLog }

/-- The outcome of printing one thing after the other, up to the first that is refused. -/
def Host.print (host : Host) : List Printed → Outcome
  | [] => {}
  | item :: rest =>
    match host.refusal? item with
    | some complaint => .failed (.console complaint)
    | none => Outcome.followedBy { prints := [item] } (host.print rest)

def versionLine : String := "authreport, version 0.1.0\n"

/-- The outcome of giving a result: on the console as text, otherwise as a document that is written
to a file or to the standard output. -/
def deliver (host : Host) (store : FileStore) (output : Output) (asText : List Printed) (doc : Doc)
    (title : String) : Outcome :=
  match output.effective, output.file with
  | .text, _ => host.print asText
  | .file format, none => { stdout := format.write doc ++ "\n" }
  | .file format, some file =>
    if store.isFolderNamed file || file = "" then .failed (.outputIsFolder file)
    else
      Outcome.followedBy { written := [(FileName.tidy file, format.write doc)] }
        (host.print [.line ("[green]" ++ title ++ " written to " ++ file ++ "[/green]")])

def settingsOf (environment : List (String × String)) (apiKeyHeader : Option String) : Settings :=
  let settings := Settings.ofEnvironment environment
  match apiKeyHeader with
  | some header => if header = "" then settings else { settings with apiKeyHeader := header }
  | none => settings

/-- Whether a scan shows its progress: not if its result goes to the standard output. -/
def isChatty (output : Output) : Bool := output.effective == .text || output.file.isSome

def scanResult (host : Host) (store : FileStore) (output : Output)
    (result : Except ScanFailure Report) : Outcome :=
  match result with
  | .ok report =>
    deliver host store output (.line "" :: Render.report report) report.toDoc "Report"
  | .error (.invalid e) => .failed (.invalidReport e)
  | .error (.fatal e) => .failed (.scan e)

/-- Runs a scan. Its log is that of the whole scan, also where the console refuses the progress. -/
def runScan (host : Host) (store : FileStore) (settings : Settings) (now : Moment)
    (entries : List String) (package : String) (output : Output) : Outcome :=
  let outcome := Scan.run (store.classPath entries) package settings now
  let lines := ("[bold]Scanning:[/bold] " ++ Text.join ", " entries) ::
    outcome.progress.map ("  " ++ ·)
  let progress := host.print (if isChatty output then lines.map .line else [])
  Outcome.followedBy { progress with toLog := outcome.toLog }
    (scanResult host store output outcome.result)

def loadReport (host : Host) (store : FileStore) (name : String) : Except Failure Report :=
  match store.fileNamed? name with
  | some content => (Report.ofFile name content.bytes host.yaml).mapError (.unreadable name)
  | none => .error (.unreadable name .notText)

def runDiff (host : Host) (store : FileStore) (old new : String) (key : DiffKey)
    (output : Output) : Outcome :=
  match loadReport host store old, loadReport host store new with
  | .error e, _ => .failed e
  | _, .error e => .failed e
  | .ok old, .ok new =>
    let diff := old.diff key new
    deliver host store output (Render.diff diff) diff.toDoc "Differential report"

def runTrace (host : Host) (store : FileStore) (entry typeName methodName : String)
    (inlineLambdas : Bool) : Outcome :=
  match (store.classPath [entry]).trace typeName methodName none inlineLambdas with
  | .ok events => host.print (Render.trace (typeName ++ "." ++ methodName) events)
  | .error (.unavailable reason) => .failed (.trace reason)
  | .error (.fatal e) => .failed (.scan e)

def Request.run (host : Host) (store : FileStore) (environment : List (String × String))
    (now : Moment) : Request → Outcome
  | .version => { stdout := versionLine }
  | .scan entries package apiKeyHeader output =>
    runScan host store (settingsOf environment apiKeyHeader) now entries package output
  | .diff old new key output => runDiff host store old new key output
  | .trace entry typeName methodName inlineLambdas =>
    runTrace host store entry typeName methodName inlineLambdas

/-- Runs an invocation. Logging is set up for all but the version. -/
def Invocation.run (host : Host) (store : FileStore) (environment : List (String × String))
    (now : Moment) (i : Invocation) : Outcome :=
  let outcome := i.request.run host store environment now
  match i.request with
  | .version => outcome
  | _ => { outcome with logging := Logging.configure i.verbose {} }

/-- Runs the program on its arguments. -/
def run (store : FileStore) (environment : List (String × String)) (now : Moment)
    (arguments : List String) (host : Host := {}) : Except UsageError Outcome :=
  (Invocation.ofArguments store arguments).map (·.run host store environment now)

/-- The message of a failure that has one for the user, with the words of the cause if there are
any. -/
def Failure.message? (words : Option String := none) : Failure → Option String
  | .unreadable file (.yaml .malformed) => some (unreadable file)
  | .unreadable file (.invalid _) => some (unreadable file)
  | .unreadable _ _ => none
  | .invalidReport e => some ("Step " ++ Scan.buildStep ++ " failed: " ++ e.message)
  | .trace reason => some (reason.message words)
  | .scan _ => none
  | .outputIsFolder _ => none
  | .console _ => none
where
  unreadable (file : String) : String := Text.withWords ("Cannot read report " ++ file) words

end EndpointAudit.Command
