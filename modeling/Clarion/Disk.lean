import Clarion.Files

/-! A disk as a tree of folders, files and links. A path is walked segment by segment: `..` goes up
from where the walk has come to, links are followed, and what stands before a separator has to be a
folder. -/
namespace Clarion

/-- What stands under a name. -/
inductive Node where
  | file (bytes : List UInt8)
  | link (target : Path)
  | folder (entries : List (String × Node))
deriving Repr, Inhabited

/-- Names from the root down to a node. -/
abbrev Place := List String

namespace Node

/-- The node is a folder. -/
def isFolder : Node → Bool
  | .folder _ => true
  | _ => false

/-- The entries of a folder, by name. -/
def entries : Node → List (String × Node)
  | .folder entries => entries.mergeSort fun left right => left.1 ≤ right.1
  | _ => []

/-- The node at a place below. Links are not followed. -/
def get? : Node → Place → Option Node
  | node, [] => some node
  | .folder entries, name :: rest => (entries.lookup name).bind (·.get? rest)
  | _, _ :: _ => none

/-- Entries with the one of a name set. -/
def setEntry (entries : List (String × Node)) (name : String) (node : Node) :
    List (String × Node) :=
  if entries.any (·.1 == name) then
    entries.map fun entry => if entry.1 == name then (name, node) else entry
  else entries ++ [(name, node)]

/-- The tree with a node put at a place, and with the folders that lead to it. -/
def put (node : Node) : Place → Node → Node
  | [], _ => node
  | name :: rest, .folder entries =>
    .folder (setEntry entries name (node.put rest ((entries.lookup name).getD (.folder []))))
  | name :: rest, _ => .folder [(name, node.put rest (.folder []))]

end Node

/-- A disk and the folder that relative paths start from. -/
structure Disk where
  root : Node := .folder []
  here : Place := []
deriving Repr, Inhabited

namespace Disk

/-- How many links a walk may follow. -/
def linkLimit : Nat := 40

/-- The segments of a path between its separators. -/
def segments (path : Path) : List String :=
  (Path.segments path.text.toList).map String.ofList

/-- Where a walk along `path` starts that would otherwise start at `place`. -/
def start (place : Place) (path : Path) : Place :=
  if path.isAbsolute then [] else place

/-- The place that segments lead to from a place; `budget` bounds the links still followed. -/
def walk (root : Node) (budget : Nat) (place : Place) : List String → Option Place
  | [] => some place
  | segment :: rest =>
    if !(root.get? place).any Node.isFolder then none
    else if segment = "" ∨ segment = "." then walk root budget place rest
    else if segment = ".." then walk root budget place.dropLast rest
    else
      match root.get? (place ++ [segment]) with
      | none => none
      | some (.link target) =>
        match budget with
        | 0 => none
        | budget + 1 => walk root budget (start place target) (segments target ++ rest)
      | some _ => walk root budget (place ++ [segment]) rest
termination_by segments => (budget, segments.length)

/-- The place of what a path names, links followed. The empty path names nothing. -/
def place? (disk : Disk) (path : Path) : Option Place :=
  if path.text.isEmpty then none
  else walk disk.root linkLimit (start disk.here path) (segments path)

/-- The place and the node of what a path names, links followed. -/
def locate? (disk : Disk) (path : Path) : Option (Place × Node) := do
  let place ← disk.place? path
  let node ← disk.root.get? place
  return (place, node)

/-- The path itself names a link. -/
def isLink (disk : Disk) (path : Path) : Bool :=
  match (segments path).reverse with
  | [] => false
  | last :: before =>
    match walk disk.root linkLimit (start disk.here path) before.reverse with
    | none => false
    | some place =>
      match disk.root.get? (place ++ [last]) with
      | some (.link _) => true
      | _ => false

/-- The bytes of the file that a path names. -/
def bytes? (disk : Disk) (path : Path) : Option (List UInt8) :=
  match disk.locate? path with
  | some (_, .file bytes) => some bytes
  | _ => none

/-- The files right inside the folder that a path names, by name. Links to files do not count. -/
def filesInside? (disk : Disk) (path : Path) : Option (List Path) :=
  match disk.locate? path with
  | some (_, .folder entries) =>
    some ((Node.folder entries).entries.filterMap fun (name, node) =>
      match node with
      | .file _ => some (path.join ⟨name⟩)
      | _ => none)
  | _ => none

/-- The disk as the resolver sees it. Nothing on it changes. -/
def fileSystem (disk : Disk) : FileSystem where
  has path := (disk.place? path).isSome
  read path := (disk.bytes? path).elim (.error "cannot be read") (.ok <| Text.decodeLenient ·)
  modified? path := (disk.place? path).map fun _ => 0
  list? path := disk.filesInside? path

/-- Where opening segments for writing finds or makes its file; `budget` bounds the links still
followed. -/
def fileSpot? (root : Node) : Nat → Place → List String → Option Place
  | 0, _, _ => none
  | budget + 1, place, segments =>
    match segments.reverse with
    | [] | "" :: _ | "." :: _ | ".." :: _ => none
    | last :: before => do
      let parent ← walk root linkLimit place before.reverse
      if !(root.get? parent).any Node.isFolder then none
      else
        match root.get? (parent ++ [last]) with
        | some (.folder _) => none
        | some (.link target) => fileSpot? root budget (start parent target) (Disk.segments target)
        | _ => some (parent ++ [last])

/-- Opens a file for writing, and makes it when it is not there: the place of a new file, and the
disk afterwards. -/
def openFile? (disk : Disk) (path : Path) : Option (Option Place × Disk) := do
  let spot ← fileSpot? disk.root linkLimit (start disk.here path) (segments path)
  return match disk.root.get? spot with
    | some _ => (none, disk)
    | none => (some spot, { disk with root := (Node.file []).put spot disk.root })

/-- The disk with a node at a path below the folder it starts from. -/
def add (disk : Disk) (path : Path) (node : Node) : Disk :=
  let names := (segments path).filter (!·.isEmpty)
  { disk with root := node.put (disk.here ++ names) disk.root }

/-- The path of the folder that relative paths start from. -/
def herePath (disk : Disk) : Path :=
  ⟨"/" ++ String.intercalate "/" disk.here⟩

end Disk
end Clarion
