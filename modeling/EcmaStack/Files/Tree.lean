import EcmaStack.Files.System

/-!
# File trees

A file system that is a value: the files below one directory with their bytes. Directories are
those that some file lies in, those above the directory, the root, and the one that holds the
null device. No directory is ever made. A place is written as the steps that lead to it from the
directory: two dots for each level above it, or a first slash for a place told from the root.
-/

namespace EcmaStack

/-- The way to a file, one name for each step. -/
abbrev TreePath := List String

/-- Files with their bytes. -/
structure FileTree where
  files : List (TreePath × List UInt8) := []

/-- What lies at a place. The null device is empty whatever is written to it. -/
inductive FileEntry where
  | file (bytes : List UInt8)
  | directory
  | nullDevice
  | absent

namespace FileTree

/-- The directories that are there without a file in them: the one the tree hangs on, those
above it, the root and the directory of devices. -/
def isFixedDirectory (way : TreePath) : Bool :=
  way.all (· == "..") || way == ["/"] || way == ["/", "dev"]

/-- What lies at the end of a way. -/
def entry (t : FileTree) (way : TreePath) : FileEntry :=
  match t.files.lookup way with
  | some bytes => .file bytes
  | none =>
    if isFixedDirectory way || t.files.any (fun f => way.isPrefixOf f.1) then .directory
    else if way == ["/", "dev", "null"] then .nullDevice
    else .absent

/-- The way to the directory above. The root is above itself. -/
def above (way : TreePath) : TreePath :=
  if way == ["/"] then way else if way.all (· == "..") then way ++ [".."] else way.dropLast

/-- The longest name of a file, in bytes. -/
def longestName : Nat := 255

/-- The longest path, in bytes. -/
def longestPath : Nat := 4095

/-- Follow the steps of a path from a directory on. An empty step or a dot stays, two dots go
back. -/
def follow (t : FileTree) (way : TreePath) : List String → Except FileCause TreePath
  | [] => .ok way
  | step :: rest =>
    match t.entry way with
    | .file _ | .nullDevice => .error .notDirectory
    | .absent => .error .missing
    | .directory =>
      if step == "" || step == "." then t.follow way rest
      else if step == ".." then t.follow (above way) rest
      else if step.utf8ByteSize > longestName then .error .nameTooLong
      else t.follow (way ++ [step]) rest

/-- The place a path leads to. -/
def place (t : FileTree) (path : String) : Except FileCause TreePath :=
  if path.contains '\x00' then .error .invalid
  else if path.utf8ByteSize > longestPath then .error .nameTooLong
  else if path.isEmpty then .error .missing
  else t.follow (if path.startsWith "/" then ["/"] else []) (path.splitOn "/")

/-- The bytes of a file. -/
def read (t : FileTree) (path : String) : Except FileFault (List UInt8) :=
  match t.place path with
  | .error cause => .error ⟨.opening, path, cause⟩
  | .ok way =>
    match t.entry way with
    | .file bytes => .ok bytes
    | .nullDevice => .ok []
    | .directory => .error ⟨.reading, path, .isDirectory⟩
    | .absent => .error ⟨.opening, path, .missing⟩

/-- The tree with a file's bytes set. -/
def set (t : FileTree) (way : TreePath) (bytes : List UInt8) : FileTree :=
  match t.files.lookup way with
  | some _ => ⟨t.files.map fun f => if f.1 == way then (way, bytes) else f⟩
  | none => ⟨t.files ++ [(way, bytes)]⟩

/-- A path without the slashes at its end; of slashes alone one stays. -/
def withoutFinalSlashes (path : String) : String :=
  match path.toList.reverse.dropWhile (· == '/') with
  | [] => if path.isEmpty then "" else "/"
  | kept => String.ofList kept.reverse

/-- Make a file. A path that ends in a slash names a directory. -/
def create (t : FileTree) (path : String) (bytes : List UInt8) : Except FileFault FileTree :=
  let found := if path.utf8ByteSize > longestPath then .error .nameTooLong
    else t.place (withoutFinalSlashes path)
  match found with
  | .error cause => .error ⟨.opening, path, cause⟩
  | .ok way =>
    match t.entry way with
    | .directory => .error ⟨.opening, path, .isDirectory⟩
    | .nullDevice => if path.endsWith "/" then .error ⟨.opening, path, .isDirectory⟩ else .ok t
    | _ =>
      if path.endsWith "/" then .error ⟨.opening, path, .isDirectory⟩ else .ok (t.set way bytes)

/-- Whether a place lies below the directory. -/
def isBelow (way : TreePath) : Bool :=
  way.head? != some ".." && way.head? != some "/"

/-- The files below the directory that are new or differ from those of an earlier tree, in order
of their paths. -/
def changedSince (t before : FileTree) : List (String × List UInt8) :=
  let changed := t.files.filter fun f => isBelow f.1 && before.files.lookup f.1 != some f.2
  (changed.map fun f => ("/".intercalate f.1, f.2)).mergeSort fun a b => decide (a.1 ≤ b.1)

/-- The tree as a file system with fixed variables. -/
def system (environment : List (String × String)) : FileSystem (StateM FileTree) where
  read path := do return (← get).read path
  create path bytes := do
    match (← get).create path bytes with
    | .error fault => return .error fault
    | .ok t =>
      MonadState.set t
      return .ok ()
  lookup name := return environment.lookup name

end FileTree

end EcmaStack
