/-
A directory that is held in memory.  A path leads through folders exactly if a file lies in them,
and it may lead out of the directory, by steps up or from the root.  Out there little is known:
the folders above the directory, the folders that every root has, and the null device.
-/
import Schemata.CommandLine

namespace Schemata

open CommandLine (FileError Files)

/-- Paths of files, split at their slashes, with the contents of the files. -/
structure Directory where
  files : List (List String × String)
  deriving DecidableEq, Repr

namespace Directory

def ofList (files : List (String × String)) : Directory :=
  ⟨files.map fun (path, content) =>
    ((path.splitOn "/").filter fun name => name != "" && name != ".", content)⟩

/-! ## What lies where -/

/-- The folder that absolute paths begin in. -/
def root : List String := ["/"]

/-- The folders that every root has. -/
def rootFolders : List String :=
  ["bin", "boot", "dev", "etc", "home", "lib", "media", "mnt", "opt", "proc", "root", "run", "sbin",
    "srv", "sys", "tmp", "usr", "var"]

/-- The device that reads as an empty file and keeps nothing of what is written to it. -/
def nullDevice : List String := ["/", "dev", "null"]

/-- The folder that a folder lies in.  The way out of the directory is written as steps up, and the
root lies in itself. -/
def parent (folder : List String) : List String :=
  match folder.getLast? with
  | none => [".."]
  | some name =>
    if name == ".." then folder ++ [".."]
    else if name == "/" then folder
    else folder.dropLast

def isFolder (d : Directory) (path : List String) : Bool :=
  path.all (· == "..") || path == root || rootFolders.any (fun name => path == root ++ [name])
    || d.files.any fun f => path.isPrefixOf f.1 && path.length < f.1.length

def contents? (d : Directory) (path : List String) : Option String :=
  if path == nullDevice then some "" else (d.files.find? fun f => f.1 == path).map (·.2)

/-! ## Following a path -/

/-- Where a path has led so far. -/
inductive Place
  | folder (path : List String)
  | file (path : List String)
  /-- There is nothing, but a file could be put there. -/
  | vacant (path : List String)
  deriving DecidableEq, Repr

def look (d : Directory) (path : List String) : Place :=
  if d.isFolder path then .folder path
  else if (d.contents? path).isSome then .file path
  else .vacant path

/-- The most bytes that a name may have. -/
def nameBound : Nat := 255

/-- The number of bytes at which a path is too long. -/
def pathBound : Nat := 4096

/-- One step of a path.  It begins in a folder, also if it stays there: a path with a slash at its
end asks for a folder. -/
def step (d : Directory) (place : Place) (name : String) : Except FileError Place :=
  match place with
  | .file _ => .error .notDirectory
  | .vacant _ => .error .notFound
  | .folder path =>
    if name == "" || name == "." then .ok place
    else if name == ".." then .ok (.folder (parent path))
    else if nameBound < name.utf8ByteSize then .error .nameTooLong
    else .ok (d.look (path ++ [name]))

/-- The place that is reached by the `names` of a path from where the path begins. -/
def walk (d : Directory) (path : String) (names : List String) : Except FileError Place :=
  if path.isEmpty then .error .notFound
  else if pathBound ≤ path.utf8ByteSize then .error .nameTooLong
  else names.foldlM d.step (.folder (if path.startsWith "/" then root else []))

def read (d : Directory) (path : String) : Except FileError String := do
  match ← d.walk path (path.splitOn "/") with
  | .folder _ => .error .isDirectory
  | .vacant _ => .error .notFound
  | .file place =>
    match d.contents? place with
    | none => .error .notFound
    | some content => .ok content

/-- The directory with a file written at a place where no folder is. -/
def put (d : Directory) (place : List String) (content : String) : Directory :=
  if place == nullDevice then d else ⟨(place, content) :: d.files.filter fun f => f.1 != place⟩

/-- The names of a path that ends in a slash, without the last one. -/
def wayTo (path : String) : List String :=
  (((path.splitOn "/").reverse.dropWhile (· == "")).drop 1).reverse

/-- The directory with a file written anew.  Folders are not made, and a path with a slash at its
end counts as one of a folder even if nothing is there. -/
def write (d : Directory) (path content : String) : Except FileError Directory := do
  if path.endsWith "/" then
    let _ ← d.walk path (wayTo path ++ ["."])
    .error .isDirectory
  else
    match ← d.walk path (path.splitOn "/") with
    | .folder _ => .error .isDirectory
    | .file place | .vacant place => .ok (d.put place content)

/-- The files of the directory, as a program reaches them. -/
def access : Files (StateM Directory) where
  read path := do return (← get).read path
  write path content := do
    match (← get).write path content with
    | .error e => return .error e
    | .ok d =>
      set d
      return .ok ()

end Directory

end Schemata
