/-!
# Files by path

Programs are read from files. A path is relative to the directory of the tree unless it starts
with a slash; empty components and `.` stand for the directory they are in, and `..` for the one
above. A tree of files is given by the paths of its files, and the directories are those on the
way to them. Outside the tree there are directories but no files. Names and paths have a greatest
length, counted in bytes.

## Main definitions

* `FilePath.baseName` — the name of a file as shown to a reader
* `ReadError` — why a file cannot be read
* `FileTree` — files held in memory
* `FileTree.read` — the text of the file at a path
-/

namespace LWorkbench

namespace FilePath

/-- A component of a path has at most this many bytes. -/
def nameLimit : Nat := 255

/-- A path has at most this many bytes. -/
def pathLimit : Nat := 4095

/-- The components of a path, as they stand between slashes. -/
def components (path : String) : List String :=
  path.splitOn "/"

/-- Whether a component stands for the directory it is in. -/
def isHere (component : String) : Bool :=
  component == "" || component == "."

/-- The last component of a path that names something, or the whole path when it ends in `..` or
names nothing. -/
def baseName (path : String) : String :=
  match ((components path).filter (!isHere ·)).getLast? with
  | some name => if name == ".." then path else name
  | none => path

end FilePath

/-- Why a file cannot be read. -/
inductive ReadError where
  | notFound
  | notDirectory
  | isDirectory
  /-- The path or a component of it is longer than any may be. -/
  | tooLong
  /-- The path contains a character that no path may contain. -/
  | nulCharacter
  deriving DecidableEq, Repr

/-- The text of an error. -/
def ReadError.message : ReadError → String
  | notFound => "No such file or directory (os error 2)"
  | notDirectory => "Not a directory (os error 20)"
  | isDirectory => "Is a directory (os error 21)"
  | tooLong => "File name too long (os error 36)"
  | nulCharacter => "file name contained an unexpected NUL byte"

/-- What there is at a place of a tree. -/
inductive FileEntry where
  | file (text : String)
  | directory
  | missing
  deriving DecidableEq, Repr

/-- Files held in memory, each with the components of its path. -/
structure FileTree where
  files : List (List String × String)

namespace FileTree

/-- The tree of the given files by path. -/
def ofList (files : List (String × String)) : FileTree :=
  ⟨files.map fun (path, text) => ((FilePath.components path).filter (!FilePath.isHere ·), text)⟩

/-- What there is at a place. -/
def entry (tree : FileTree) (place : List String) : FileEntry :=
  match tree.files.find? (·.1 == place) with
  | some (_, text) => .file text
  | none => if tree.files.any (place.isPrefixOf ·.1) then .directory else .missing

/-- What comes of reading at components that lead on from outside the tree. The first one that
names something is looked for, and there is none. -/
def readOutside (components : List String) : Except ReadError String :=
  match components.find? fun c => !(FilePath.isHere c || c == "..") with
  | none => .error .isDirectory
  | some name => .error (if FilePath.nameLimit < name.utf8ByteSize then .tooLong else .notFound)

/-- The text of the file that the components lead to from a directory of the tree. -/
def readFrom (tree : FileTree) (directory : List String) : List String → Except ReadError String
  | [] => .error .isDirectory
  | component :: rest =>
    if FilePath.isHere component then tree.readFrom directory rest
    else if component == ".." then
      if directory.isEmpty then readOutside rest else tree.readFrom directory.dropLast rest
    else if FilePath.nameLimit < component.utf8ByteSize then .error .tooLong
    else
      let place := directory ++ [component]
      match tree.entry place with
      | .missing => .error .notFound
      | .directory => tree.readFrom place rest
      | .file text => if rest.isEmpty then .ok text else .error .notDirectory

/-- The text of the file at a path. -/
def read (tree : FileTree) (path : String) : Except ReadError String :=
  if path.toList.contains (Char.ofNat 0) then .error .nulCharacter
  else if FilePath.pathLimit < path.utf8ByteSize then .error .tooLong
  else if path == "" then .error .notFound
  else if path.startsWith "/" then readOutside (FilePath.components path)
  else tree.readFrom [] (FilePath.components path)

end FileTree

end LWorkbench
