import EndpointAudit.ClassPath.FileName
import EndpointAudit.Trace.Lambda

/-!
# Class paths

A class path is an ordered list of folders and archives that hold compiled classes. An archive may
keep its classes below one of two well-known folders, which are looked into after its top level.
-/

namespace EndpointAudit

inductive EntryContent where
  /-- A folder: its files by the components of their names, and its folders. -/
  | folder (files : List (List String × Bytes)) (folders : List (List String))
  /-- An archive: its members in their order; of members with one name the last one counts. -/
  | archive (members : List (String × Bytes))
  /-- A file named like an archive that is none. -/
  | brokenArchive
  /-- Anything else, or nothing. -/
  | other
deriving DecidableEq, Repr

structure ClassPathEntry where
  name : String
  content : EntryContent
deriving DecidableEq, Repr

structure ClassPath where
  entries : List ClassPathEntry
deriving DecidableEq, Repr

inductive ScanError where
  | brokenArchive (entry : String)
  /-- A method's descriptor has no closing parenthesis. -/
  | badDescriptor (descriptor : String)
deriving DecidableEq, Repr

inductive LoadError where
  | unavailable (reason : Unavailable)
  | fatal (error : ScanError)
deriving DecidableEq, Repr

namespace ClassPath

/-- The file of a type, below the root of an entry. -/
def resourceOf (typeName : String) : String :=
  Text.replaceChar '.' '/' typeName ++ ".class"

def typeOf (resource : String) : String :=
  Text.replaceChar '/' '.' (Text.dropLast 6 resource)

/-- The folders of an archive that may hold classes, beside its top level. -/
def classFolders : List String := ["BOOT-INF/classes/", "WEB-INF/classes/"]

def member? (members : List (String × Bytes)) (name : String) : Option Bytes :=
  (members.reverse.find? (·.1 == name)).map (·.2)

def file? (files : List (List String × Bytes)) (name : String) : Option Bytes :=
  if FileName.isAbsolute name then none
  else (files.find? (·.1 == FileName.components name)).map (·.2)

def readEntry (entry : ClassPathEntry) (resource : String) : Except ScanError (Option Bytes) :=
  match entry.content with
  | .folder files _ => .ok (file? files resource)
  | .archive members => .ok (("" :: classFolders).findSome? fun folder =>
      member? members (folder ++ resource))
  | .brokenArchive => .error (.brokenArchive entry.name)
  | .other => .ok none

/-- The content of a resource in the first of the entries that holds it. -/
def readFrom (resource : String) : List ClassPathEntry → Except ScanError (Option Bytes)
  | [] => .ok none
  | entry :: rest =>
    match readEntry entry resource with
    | .error e => .error e
    | .ok (some bytes) => .ok (some bytes)
    | .ok none => readFrom resource rest

def read (cp : ClassPath) (typeName : String) : Except LoadError Bytes :=
  match readFrom (resourceOf typeName) cp.entries with
  | .ok (some bytes) => .ok bytes
  | .ok none => .error (.unavailable (.typeNotFound typeName))
  | .error e => .error (.fatal e)

/-- The class file of a type, whose name may be in internal form. -/
def load (cp : ClassPath) (typeName : String) : Except LoadError ClassFile := do
  let bytes ← cp.read (Naming.dotted typeName)
  (ClassFile.parse bytes).mapError fun e => .unavailable (.classFile e)

def trace (cp : ClassPath) (typeName methodName : String) (descriptor : Option String)
    (inlineLambdas : Bool) : Except LoadError (List Event) := do
  let cls ← cp.load typeName
  (Trace.ofMethod cls methodName descriptor inlineLambdas).mapError .unavailable

/-! ## Listing -/

/-- The folders above a file. -/
def parents (components : List String) : List (List String) :=
  (List.range components.length).filterMap fun n =>
    if n = 0 then none else some (components.take n)

/-- The names in a folder that end in `.class`, of files as of folders, in order. -/
def folderResources (files : List (List String × Bytes)) (folders : List (List String)) :
    List String :=
  let nodes := (files.map (·.1) ++ files.flatMap (fun f => parents f.1) ++ folders ++
    folders.flatMap parents).eraseDups
  let classes := nodes.filter fun node => Text.endsWith (node.getLastD "") ".class"
  (classes.mergeSort FileName.componentsLe).map (Text.join "/")

/-- The name of a member below the folder that holds an archive's classes. -/
def withoutClassFolder (name : String) : String :=
  match classFolders.find? (Text.startsWith name ·) with
  | some folder => String.ofList (name.toList.drop folder.length)
  | none => name

/-- The names of an archive's members, sorted before the folders of classes are taken off. -/
def archiveResources (members : List (String × Bytes)) : List String :=
  ((members.map (·.1)).mergeSort fun a b => decide (a ≤ b)).map withoutClassFolder

/-- What is met when the entries of a class path are listed. -/
inductive Visit where
  | type (typeName : String)
  /-- An entry that is neither folder nor archive. -/
  | skipped (entry : String)
  /-- An archive that cannot be opened. -/
  | broken (entry : String)
deriving DecidableEq, Repr

def packageStart (package : String) : String :=
  let start := String.ofList
    (trimSlashes (Text.replaceChar '.' '/' package).toList)
  if start = "" then "" else start ++ "/"
where
  trimSlashes (cs : List Char) : List Char :=
    ((cs.dropWhile (· == '/')).reverse.dropWhile (· == '/')).reverse

/-- Whether a resource is a class of a package. The files that describe modules and packages are
not. -/
def isClassIn (start : String) (resource : String) : Bool :=
  Text.startsWith resource start && Text.endsWith resource ".class" &&
    !Text.endsWith resource "module-info.class" && !Text.endsWith resource "package-info.class"

def visitEntry (start : String) (entry : ClassPathEntry) : List Visit :=
  match entry.content with
  | .folder files folders =>
    ((folderResources files folders).filter (isClassIn start)).map fun r => .type (typeOf r)
  | .archive members =>
    ((archiveResources members).filter (isClassIn start)).map fun r => .type (typeOf r)
  | .brokenArchive => [.broken entry.name]
  | .other => [.skipped entry.name]

/-- Drops every type that has been met before. -/
def firstVisits (seen : List String) : List Visit → List Visit
  | [] => []
  | .type t :: rest =>
    if seen.contains t then firstVisits seen rest else .type t :: firstVisits (t :: seen) rest
  | v :: rest => v :: firstVisits seen rest

/-- What is met when the types of a package, and of the packages below it, are listed in the order
of the entries. An empty package stands for everything. A broken archive ends the list. -/
def visits (cp : ClassPath) (package : String) : List Visit :=
  untilBroken (firstVisits [] (cp.entries.flatMap (visitEntry (packageStart package))))
where
  untilBroken : List Visit → List Visit
    | [] => []
    | .broken entry :: _ => [.broken entry]
    | v :: rest => v :: untilBroken rest

end ClassPath

end EndpointAudit
