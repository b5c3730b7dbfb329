import EndpointAudit.ClassPath.FileStore
import EndpointAudit.Command.Arguments
import EndpointAudit.Report.Diff
import EndpointAudit.Report.File

/-!
# Requests

What a user asks for on the command line. Options are checked first, then arguments in their order,
and arguments that are too many last.
-/

namespace EndpointAudit.Command

inductive OutputFormat where
  | text
  | file (format : FileFormat)
deriving DecidableEq, Repr

namespace OutputFormat

def names : List (String × OutputFormat) :=
  [("text", .text), ("json", .file .json), ("yaml", .file .yaml)]

def ofName? (name : String) : Option OutputFormat := names.lookup name

def name : OutputFormat → String
  | .text => "text"
  | .file .json => "json"
  | .file .yaml => "yaml"

/-- The form in which results are given: text that goes to a file follows the file's suffix. -/
def effective (format : OutputFormat) (output : Option String) : OutputFormat :=
  match format, output with
  | .text, some name => .file (FileFormat.ofName name)
  | format, _ => format

end OutputFormat

/-- Where results go, and in what form. -/
structure Output where
  format : OutputFormat := .text
  file : Option String := none
deriving DecidableEq, Repr

def Output.effective (o : Output) : OutputFormat := o.format.effective o.file

inductive Request where
  | version
  | scan (entries : List String) (package : String) (apiKeyHeader : Option String) (output : Output)
  | diff (old new : String) (key : DiffKey) (output : Output)
  | trace (entry typeName methodName : String) (inlineLambdas : Bool)
deriving DecidableEq, Repr

/-- A request, and whether the log is to show everything. -/
structure Invocation where
  verbose : Bool
  request : Request
deriving DecidableEq, Repr

/-! ## Options -/

/-- The options in front of a command. -/
inductive GlobalOption where
  | verbose
  | version
deriving DecidableEq, Repr

def globalOptions : OptionTable GlobalOption :=
  { names := [("-v", .verbose), ("--verbose", .verbose), ("--version", .version)]
    takesValue := fun _ => false
    anywhere := false }

inductive CommandOption where
  | package
  | format
  | output
  | apiKeyHeader
  | byPath
  | noLambdas
deriving DecidableEq, Repr

def CommandOption.takesValue : CommandOption → Bool
  | .byPath | .noLambdas => false
  | _ => true

def outputOptions : List (String × CommandOption) :=
  [("-f", .format), ("--format", .format), ("-o", .output), ("--output", .output)]

def scanOptions : OptionTable CommandOption :=
  { names := outputOptions ++ [("-p", .package), ("--package", .package),
      ("--api-key-header", .apiKeyHeader)]
    takesValue := CommandOption.takesValue }

def diffOptions : OptionTable CommandOption :=
  { names := outputOptions ++ [("--by-path", .byPath)]
    takesValue := CommandOption.takesValue }

def traceOptions : OptionTable CommandOption :=
  { names := [("--no-lambdas", .noLambdas)]
    takesValue := CommandOption.takesValue }

/-! ## Checks -/

def outputOf (given : Given CommandOption) : Except UsageError Output := do
  let format ← match given.value? .format with
    | none => pure OutputFormat.text
    | some name =>
      match OutputFormat.ofName? name with
      | some format => pure format
      | none => throw .badParameter
  return { format, file := given.value? .output }

def nextArgument : List String → Except UsageError (String × List String)
  | [] => .error .missingParameter
  | argument :: rest => .ok (argument, rest)

def checkExists (store : FileStore) (name : String) : Except UsageError Unit :=
  if store.holds name then .ok () else .error .badParameter

def checkFile (store : FileStore) (name : String) : Except UsageError Unit :=
  if store.holds name && !store.isFolderNamed name then .ok () else .error .badParameter

def checkNone (arguments : List String) : Except UsageError Unit :=
  if arguments.isEmpty then .ok () else .error .extraArgument

def scanRequest (store : FileStore) (arguments : List String) : Except UsageError Request := do
  let given ← scanOptions.read arguments
  let output ← outputOf given
  if given.arguments.isEmpty then throw .missingParameter
  for name in given.arguments do checkExists store name
  return .scan given.arguments ((given.value? .package).getD "") (given.value? .apiKeyHeader) output

def diffRequest (store : FileStore) (arguments : List String) : Except UsageError Request := do
  let given ← diffOptions.read arguments
  let output ← outputOf given
  let (old, rest) ← nextArgument given.arguments
  checkFile store old
  let (new, rest) ← nextArgument rest
  checkFile store new
  checkNone rest
  return .diff old new (if given.has .byPath then .path else .pathAndVerb) output

def traceRequest (store : FileStore) (arguments : List String) : Except UsageError Request := do
  let given ← traceOptions.read arguments
  let (entry, rest) ← nextArgument given.arguments
  checkExists store entry
  let (typeName, rest) ← nextArgument rest
  let (methodName, rest) ← nextArgument rest
  checkNone rest
  return .trace entry typeName methodName (!given.has .noLambdas)

def requestOf? (name : String) :
    Option (FileStore → List String → Except UsageError Request) :=
  match name with
  | "scan" => some scanRequest
  | "diff" => some diffRequest
  | "trace" => some traceRequest
  | _ => none

/-- The invocation that arguments stand for. Where the name of a command is expected an unknown
option is looked at once more as an option. -/
def Invocation.ofArguments (store : FileStore) (arguments : List String) :
    Except UsageError Invocation := do
  let given ← globalOptions.read arguments
  let verbose := given.has .verbose
  if given.has .version then return { verbose, request := .version }
  match given.arguments with
  | [] => throw .missingCommand
  | name :: rest =>
    match requestOf? name with
    | some request => return { verbose, request := ← request store rest }
    | none =>
      let again ← globalOptions.read (name :: rest)
      if again.has .version then return { verbose, request := .version }
      throw .noSuchCommand

end EndpointAudit.Command
