import Clarion.Path
import Clarion.Text.Utf8

/-! Files: what the resolver may ask of a disk, and a disk held in memory. -/
namespace Clarion

/-- What the resolver asks of a disk. -/
structure FileSystem where
  /-- Something stands at the path. -/
  has : Path → Bool
  /-- The text of a file, or why it cannot be read. -/
  read : Path → Except String String
  /-- When a file last changed, in the ticks of the clock. -/
  modified? : Path → Option Nat
  /-- The files right inside a directory, in order. -/
  list? : Path → Option (List Path)

/-- The content of a file. -/
inductive Content where
  | bytes (bytes : List UInt8)
  /-- The file is there and cannot be read. -/
  | denied
deriving Repr, DecidableEq

/-- A file in memory. -/
structure File where
  path : Path
  content : Content
  /-- When the file last changed, in the ticks of the clock. -/
  modified : Nat
deriving Repr, DecidableEq

/-- Files in memory, in the order they were first written. No two have the same parts. -/
abbrev Files := List File

namespace Files

/-- The file that a path names. -/
def get? (files : Files) (path : Path) : Option File :=
  files.find? (·.path.same path)

/-- Writes a file; one that is already there keeps the spelling of its path. -/
def write (files : Files) (path : Path) (content : Content) (modified : Nat) : Files :=
  if (files.get? path).isSome then
    files.map fun file =>
      if file.path.same path then { file with content, modified } else file
  else files ++ [⟨path, content, modified⟩]

/-- Removes a file. -/
def remove (files : Files) (path : Path) : Files :=
  files.filter (!·.path.same path)

/-- The order of file names, by character. -/
def nameLe (left right : File) : Bool :=
  (left.path.fileName?.getD "") ≤ (right.path.fileName?.getD "")

/-- The files whose parent has the parts of `directory`, by name. -/
def inside (files : Files) (directory : Path) : List Path :=
  let found := files.filter fun file => file.path.parent?.any (·.same directory)
  (found.mergeSort nameLe).map File.path

/-- The disk that holds just these files. -/
def fileSystem (files : Files) : FileSystem where
  has path := (files.get? path).isSome
  read path :=
    match (files.get? path).map File.content with
    | some (.bytes bytes) => .ok (Text.decodeLenient bytes)
    | some .denied => .error "denied"
    | none => .error "not found"
  modified? path := (files.get? path).map File.modified
  list? directory :=
    match files.inside directory with
    | [] => none
    | paths => some paths

end Files
end Clarion
