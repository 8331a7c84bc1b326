import SingleFile.Dictionary
import SingleFile.Text.Path

/-! # Files

Whatever holds files answers two questions: whether something is at a path, and which text it is. A
store holds them in memory and keeps one text per place. Paths that differ only in repeated slashes,
a slash at the end or inner `.` components are one place; nothing else is normalised.
-/

namespace SingleFile

inductive FileError where
  | unknownPath (path : String)
  | missing
  | notDirectory
  | isDirectory
  | notText
  | tooLong
  | zeroInPath
deriving DecidableEq

def FileError.message : FileError → String
  | .unknownPath path => path ++ " not found"
  | .missing => "No such file or directory (os error 2)"
  | .notDirectory => "Not a directory (os error 20)"
  | .isDirectory => "Is a directory (os error 21)"
  | .notText => "stream did not contain valid UTF-8"
  | .tooLong => "File name too long (os error 36)"
  | .zeroInPath => "file name contained an unexpected NUL byte"

/-- A place to read files from. -/
structure FileSource where
  exists? : String → Bool
  read : String → Except FileError String

structure FileStore where
  files : Dictionary Text.Path.Key String

namespace FileStore

def empty : FileStore :=
  ⟨.empty⟩

def add (store : FileStore) (path text : String) : FileStore :=
  ⟨store.files.insert (Text.Path.key path) text⟩

def size (store : FileStore) : Nat :=
  store.files.size

def find? (store : FileStore) (path : String) : Option String :=
  store.files.find? (Text.Path.key path)

/-- A text is found under every path that names the place it was last added to. -/
theorem find?_add (store : FileStore) (path other text : String) :
    (store.add path text).find? other =
      if Text.Path.key path = Text.Path.key other then some text else store.find? other :=
  store.files.find?_insert _ _ _

def read (store : FileStore) (path : String) : Except FileError String :=
  match store.find? path with
  | some text => .ok text
  | none => .error (.unknownPath path)

def source (store : FileStore) : FileSource where
  exists? path := (store.find? path).isSome
  read := store.read

end FileStore

end SingleFile
