import Clarion.Disk
import Clarion.Project.Failure

/-! Discovery of solutions: a walk through folders in the order of names, where the files of a
folder come at the place of the folder. -/
namespace Clarion.Discovery

/-- What a scan passes over, and when it stops. -/
structure Options where
  /-- Passes over entries whose name starts with a period. -/
  skipHidden : Bool := true
  followLinks : Bool := false
  /-- Stops when this many solutions were found. -/
  limit : Option Nat := none
deriving Repr, DecidableEq

/-- The name starts with a period. -/
def isHidden (name : String) : Bool :=
  name.toList.head? == some '.'

/-- The file is a solution, by its extension. -/
def isSolution (path : Path) : Bool :=
  path.extension?.any (Text.sameFold · "sln")

/-- What an entry of a folder is to a walk. -/
inductive Entry where
  | file
  /-- A folder to go through, and where it is. -/
  | folder (place : Place)
  | other
deriving Repr, DecidableEq

/-- What a walk makes of the entry at a path, which stands at `below`. A link counts as what it leads
to where links are followed; `chain` holds the folders that the walk is in, and a link that leads
back to one of them is passed over. -/
def entryAt (disk : Disk) (options : Options) (chain : List Place) (path : Path) (below : Place) :
    Node → Entry
  | .file _ => .file
  | .folder _ => .folder below
  | .link _ =>
    if !options.followLinks then .other
    else
      match disk.locate? path with
      | some (_, .file _) => .file
      | some (target, .folder _) => if chain.contains target then .other else .folder target
      | _ => .other

/-- The entries of a folder that a walk does not pass over by their names, by name. -/
def shownEntries (disk : Disk) (options : Options) (place : Place) : List (String × Node) :=
  (((disk.root.get? place).map Node.entries).getD []).filter fun entry =>
    !(options.skipHidden && isHidden entry.1)

/-- The files below a folder, in order. Folders are entered `levels` deep. -/
def filesBelow (disk : Disk) (options : Options) :
    Nat → List Place → Path → Place → List Path
  | 0, _, _, _ => []
  | levels + 1, chain, path, place =>
    (shownEntries disk options place).flatMap fun (name, node) =>
      let inner := path.join ⟨name⟩
      match entryAt disk options chain inner (place ++ [name]) node with
      | .file => [inner]
      | .folder target => filesBelow disk options levels (target :: chain) inner target
      | .other => []

/-- How many levels of folders a depth enters, the root being one of them. They are counted in 64
bits, so the largest depth of all enters none. -/
def levelsFor (depth : Nat) : Nat :=
  (depth + 1) % 18446744073709551616

/-- The files at and below a path, in order. A path that is a link to a folder is entered, and one
that is a link to a file counts only where links are followed. -/
def filesFrom (disk : Disk) (options : Options) (depth : Nat) (root : Path) : List Path :=
  match disk.locate? root with
  | some (place, .folder _) => filesBelow disk options (levelsFor depth) [place] root place
  | some (_, .file _) => if options.followLinks || !disk.isLink root then [root] else []
  | _ => []

/-- Goes on along a walk with the solutions found so far. The limit is only looked at once a
solution was found, so that a limit of none still finds one. -/
def collect (limit : Option Nat) (found : List Path) : List Path → List Path
  | [] => found
  | path :: rest =>
    if !isSolution path then collect limit found rest
    else
      let found := found ++ [path]
      if limit.any (· ≤ found.length) then found else collect limit found rest

/-- The solutions at and below a path, folders entered `depth` deep. -/
def scan (disk : Disk) (options : Options) (depth : Nat) (root : Path) :
    Except Failure (List Path) :=
  if (disk.place? root).isNone then .error (.pathNotFound root)
  else .ok (collect options.limit [] (filesFrom disk options depth root))

end Clarion.Discovery
