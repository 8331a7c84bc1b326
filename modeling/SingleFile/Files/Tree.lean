import SingleFile.Dictionary
import SingleFile.Files.Store

/-! # A directory tree

Files and directories below a root. A path is walked name by name, from the root if it starts with
a slash, else from the current directory: `.` and an empty name stay where they are, `..` goes up,
and each of them, like every further name, needs a directory to start from. The root is above
itself, and the empty path leads nowhere. Names and whole paths have a greatest length in bytes; a
name is measured only when it is looked up in a directory, a path before its first step.
-/

namespace SingleFile

/-- What is at a place. A sink takes whatever is written to it and stays empty. -/
inductive FileNode where
  | directory
  | file (bytes : ByteArray)
  | sink

/-- The nodes below the root. A place is given by the names that lead to it, innermost first. -/
structure FileTree where
  nodes : Dictionary (List String) FileNode
  current : List String

namespace FileTree

abbrev Place := List String

def nameLimit : Nat := 255

def pathLimit : Nat := 4095

def node? (tree : FileTree) : Place → Option FileNode
  | [] => some .directory
  | place => tree.nodes.find? place

def names (path : String) : List String :=
  (Text.pieces (· == '/') path.toList).map String.ofList

/-- What makes a path unfit for any walk. -/
def check (path : String) : Except FileError Unit :=
  if '\x00' ∈ path.toList then .error .zeroInPath
  else if path = "" then .error .missing
  else if pathLimit < path.utf8ByteSize then .error .tooLong
  else .ok ()

/-- Where the walk along a path starts. -/
def start (tree : FileTree) (path : String) : Place :=
  if path.toList.head? = some '/' then [] else tree.current

/-- Goes from a place, which must be a directory, to where a name leads; there may be nothing. -/
def step (tree : FileTree) (place : Place) (name : String) : Except FileError Place :=
  match tree.node? place with
  | none => .error .missing
  | some .directory =>
    if name = "" || name = "." then .ok place
    else if name = ".." then .ok place.tail
    else if nameLimit < name.utf8ByteSize then .error .tooLong
    else .ok (name :: place)
  | some _ => .error .notDirectory

def walk (tree : FileTree) (path : String) : Except FileError Place := do
  check path
  (names path).foldlM tree.step (tree.start path)

/-- The node at a path. -/
def find (tree : FileTree) (path : String) : Except FileError FileNode := do
  let place ← tree.walk path
  match tree.node? place with
  | some node => return node
  | none => throw .missing

def isDirectory (tree : FileTree) (path : String) : Bool :=
  match tree.find path with
  | .ok .directory => true
  | _ => false

def read (tree : FileTree) (path : String) : Except FileError String := do
  match ← tree.find path with
  | .directory => throw .isDirectory
  | .sink => return ""
  | .file bytes =>
    match String.fromUTF8? bytes with
    | some text => return text
    | none => throw .notText

def put (tree : FileTree) (place : Place) (node : FileNode) : FileTree :=
  { tree with nodes := tree.nodes.insert place node }

/-- Writes a file into a directory that exists; the path must end in the file's name. -/
def write? (tree : FileTree) (path : String) (bytes : ByteArray) : Option FileTree :=
  match tree.walk path, (names path).getLast? with
  | .ok (name :: place), some last =>
    if last = name then
      match tree.node? (name :: place) with
      | some .directory => none
      | some .sink => some tree
      | _ => some (tree.put (name :: place) (.file bytes))
    else none
  | _, _ => none

/-- Walks along names and makes every directory that is missing, up to the first name that cannot
be passed. The flag tells whether the whole way could be gone. -/
def makeAlong (tree : FileTree) (place : Place) : List String → FileTree × Bool
  | [] => (tree, true)
  | name :: rest =>
    match tree.step place name with
    | .error _ => (tree, false)
    | .ok next =>
      match tree.node? next with
      | some .directory => makeAlong tree next rest
      | none => makeAlong (tree.put next .directory) next rest
      | some _ => (tree, false)

/-- Makes a directory together with those that lead to it. Where the path ends in `.` it must name
a directory that is there when those that lead to it are, because no directory is made as `.`. -/
def makeDirectory (tree : FileTree) (path : String) : FileTree × Bool :=
  match check path with
  | .error _ => (tree, false)
  | .ok () =>
    let backward := (names path).reverse
    let isFiller (name : String) : Bool := name = "" || name = "."
    let way := (backward.dropWhile isFiller).reverse
    if "." ∈ backward.takeWhile isFiller then
      let (tree, made) := tree.makeAlong (tree.start path) way.dropLast
      (tree, made && tree.isDirectory path)
    else tree.makeAlong (tree.start path) way

/-- The tree of a host on which nothing has been written: a few directories that every host has,
the sink `/dev/null`, and an empty current directory. -/
def host (current : String) : FileTree :=
  let directories := ["bin", "dev", "etc", "home", "proc", "tmp", "usr", "var"].map fun name =>
    ([name], FileNode.directory)
  let (tree, _) := makeDirectory ⟨.ofList (directories ++ [(["null", "dev"], .sink)]), []⟩ current
  { tree with current := (tree.walk current).toOption.getD [] }

def source (tree : FileTree) : FileSource where
  exists? path := (tree.find path).toOption.isSome
  read := tree.read

end FileTree

end SingleFile
