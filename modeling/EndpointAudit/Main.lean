import EndpointAudit.Command.Console
import Std.Time.DateTime.Timestamp

/-!
# The program

Reads the files that the arguments name, runs the command, and shows, writes and logs what comes of
it. File names are relative to the working folder. Archives are not unpacked: a scan takes folders.
-/

namespace EndpointAudit

/-- Adds a file or a folder with all that lies below it. -/
partial def addFiles (store : FileStore) (name : String) : IO FileStore := do
  let path := (← IO.currentDir) / name
  let place := FileName.components name
  if ← path.isDir then
    let mut found := { store with folders := store.folders ++ [place] }
    for inner in ← path.readDir do
      found ← addFiles found (name ++ "/" ++ inner.fileName)
    return found
  if ← path.pathExists then
    let bytes ← IO.FS.readBinFile path
    return { store with files := store.files ++ [(place, .plain bytes.toList)] }
  return store

def filesNamed (arguments : List String) : IO FileStore :=
  arguments.foldlM (fun store name =>
    if name = "" || FileName.isAbsolute name then return store else addFiles store name) {}

def readEnvironment : IO (List (String × String)) :=
  Settings.variableNames.filterMapM fun name => do
    return (← IO.getEnv name).map (name, ·)

/-- The time, in UTC. -/
def readClock : IO Moment := do
  let nanos := (← Std.Time.Timestamp.now).toNanosecondsSinceUnixEpoch.toInt
  let seconds := nanos / 1000000000
  let micros := (nanos % 1000000000 / 1000).toNat
  let epoch : Moment := { year := 1970, month := 1, day := 1, offset := some 0 }
  return (Moment.ofUnix? seconds micros).getD epoch

/-- Writes a file into its folder, which is made if there is none. -/
def writeText (name text : String) : IO Unit := do
  let path := (← IO.currentDir) / name
  if let some folder := path.parent then
    IO.FS.createDirAll folder
  IO.FS.writeFile path text

end EndpointAudit

open EndpointAudit

def main (arguments : List String) : IO UInt32 := do
  let store ← filesNamed arguments
  match Command.run store (← readEnvironment) (← readClock) arguments with
  | .error e =>
    IO.eprintln e.message
    return Command.UsageError.exitCode.toUInt32
  | .ok outcome =>
    for (name, text) in outcome.written do
      writeText name text
    for line in outcome.logLines do
      IO.eprintln line
    for line in outcome.lines do
      IO.println line
    IO.print outcome.stdout
    return outcome.exitCode.toUInt32
