import EndpointAudit.ClassPath.Basic

/-!
# File stores

The files and folders that a command can see, by the components of their names.
-/

namespace EndpointAudit

inductive FileContent where
  | plain (bytes : Bytes)
  | archive (members : List (String × Bytes))
deriving DecidableEq, Repr

/-- Files and folders below one root. The folders above a file need not be listed. -/
structure FileStore where
  files : List (List String × FileContent) := []
  folders : List (List String) := []
deriving DecidableEq, Repr

/-- The bytes of a file; those of an archive are of no interest. -/
def FileContent.bytes : FileContent → Bytes
  | .plain bytes => bytes
  | .archive _ => []

namespace FileStore

def isFolder (store : FileStore) (place : List String) : Bool :=
  place.isEmpty || (store.files.any fun f => below f.1) ||
    store.folders.any fun f => f == place || below f
where
  below (path : List String) : Bool := place.isPrefixOf path && path != place

def file? (store : FileStore) (place : List String) : Option FileContent :=
  (store.files.find? (·.1 == place)).map (·.2)

/-- The place that components lead to, each step up leading out of a folder. -/
def follow (store : FileStore) : (place : List String) → List String → Option (List String)
  | place, [] => some place
  | place, step :: rest =>
    if !store.isFolder place then none
    else if step = ".." then
      if place.isEmpty then none else follow store place.dropLast rest
    else follow store (place ++ [step]) rest

def place? (store : FileStore) (name : String) : Option (List String) :=
  if FileName.isAbsolute name || name = "" then none
  else store.follow [] (FileName.components name)

def isFolderNamed (store : FileStore) (name : String) : Bool :=
  (store.place? name).any store.isFolder

def fileNamed? (store : FileStore) (name : String) : Option FileContent :=
  (store.place? name).bind store.file?

/-- Whether a file name leads to anything. One that ends in a slash must lead to a folder. -/
def holds (store : FileStore) (name : String) : Bool :=
  store.isFolderNamed name ||
    ((store.fileNamed? name).isSome && !Text.endsWith name "/" && !Text.endsWith name "/.")

/-- What lies below a folder, by the components behind it. -/
def contentBelow (store : FileStore) (place : List String) : EntryContent :=
  .folder
    (store.files.filterMap fun (path, content) => (relative path).map fun r => (r, content.bytes))
    (store.folders.filterMap relative)
where
  relative (path : List String) : Option (List String) :=
    if place.isPrefixOf path && path != place then some (path.drop place.length) else none

def isArchiveName (name : String) : Bool :=
  [".jar", ".war", ".zip"].contains (FileName.suffix name)

def entry (store : FileStore) (name : String) : ClassPathEntry :=
  { name := FileName.tidy name
    content := match store.place? (FileName.tidy name) with
      | none => .other
      | some place =>
        if store.isFolder place then store.contentBelow place
        else match store.file? place with
          | some (.archive members) => if isArchiveName name then .archive members else .other
          | some (.plain _) => if isArchiveName name then .brokenArchive else .other
          | none => .other }

def classPath (store : FileStore) (names : List String) : ClassPath :=
  { entries := names.map store.entry }

end FileStore

end EndpointAudit
