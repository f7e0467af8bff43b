import Clarion.Files
import Clarion.Project.Failure
import Clarion.Settings
import Clarion.Text.Case

/-! Redirection files. Each line assigns directories to a file mask, heads the lines that belong to
one build configuration, or takes in another file. A file that cannot be read, or that would be
taken in for ever, only loses its own entries. -/
namespace Clarion

/-- Directories assigned to a file mask. -/
structure Redirection where
  /-- The configuration that the entry counts for. -/
  heading : String
  mask : String
  /-- The directories, relative ones as seen from the project. -/
  paths : List Path
  /-- The file that the entry stands in. -/
  source : Path
deriving Repr, DecidableEq

namespace Redirection

/-- The heading of lines that count for every configuration. -/
def commonHeading : String := "Common"

/-- The mask that stands for every file. -/
def everyFile : String := "*.*"

/-- How deep files may take in one another. -/
def maxDepth : Nat := 16

/-- The entry counts for a configuration. -/
def appliesTo (entry : Redirection) (configuration : String) : Bool :=
  Text.sameFold entry.heading commonHeading || Text.sameFold entry.heading configuration

/-- The entry's mask stands for every file. -/
def isWildcard (entry : Redirection) : Bool :=
  entry.mask == everyFile

/-- The entry's mask is a star and just this extension. -/
def matchesExtension (entry : Redirection) (extension : String) : Bool :=
  match entry.mask.toList with
  | '*' :: rest => Text.sameFold (String.ofList rest) extension
  | _ => false

/-! ### Lines -/

/-- What a line of a redirection file says. -/
inductive Line where
  | header (name : String)
  | inclusion (target : String)
  | assignment (mask paths : String)
deriving Repr, DecidableEq

/-- The characters before the first two dashes in a row. -/
def beforeDashes : List Char → List Char
  | '-' :: '-' :: _ => []
  | c :: rest => c :: beforeDashes rest
  | [] => []

/-- What stands between the first and the last character, when they are `first` and `last`. -/
def between? (first last : Char) (line : List Char) : Option (List Char) :=
  match line with
  | c :: rest =>
    if c == first && rest.getLast? == some last then some rest.dropLast else none
  | [] => none

/-- Reads one line; a line that says nothing gives nothing. -/
def Line.parse? (raw : String) : Option Line :=
  let line := Text.trimChars (beforeDashes raw.toList)
  if line.isEmpty then none
  else
    match between? '[' ']' line with
    | some name => some (.header (String.ofList (Text.trimChars name)))
    | none =>
      match between? '\x7b' '\x7d' line with
      | some body =>
        let body := Text.trimChars body
        match Text.headBytes? 7 body with
        | none => none
        | some keyword =>
          if Text.sameFold (String.ofList keyword) "include" then
            some (.inclusion (String.ofList (Text.trimChars (body.drop keyword.length))))
          else none
      | none =>
        match Text.cutChars '=' line with
        | none => none
        | some (mask, paths) =>
          let mask := Text.trimChars mask
          if mask.isEmpty then none
          else some (.assignment (String.ofList mask) (String.ofList (Text.trimChars paths)))

/-! ### Names between percent signs -/

/-- The value of a name between percent signs: a set one, or one that the place of the redirection
file determines. -/
def nameValue? (settings : Settings) (redFile : Path) (name : String) : Option String :=
  match settings.macroValue? name with
  | some value => some value
  | none =>
    let bin := settings.binDirectory.or redFile.parent?
    if Text.sameFold name "bin" then bin.map Path.text
    else if Text.sameFold name "redname" then redFile.fileName?
    else if Text.sameFold name "root" then (bin.bind Path.parent?).map Path.text
    else none

/-- A name between percent signs at the start of the characters, and the characters after it. -/
def percentName? : List Char → Option (List Char × List Char)
  | '%' :: rest =>
    let name := rest.takeWhile fun c => c != '%' && !Text.isBlank c
    match name, rest.drop name.length with
    | [], _ => none
    | _, '%' :: after => some (name, after)
    | _, _ => none
  | _ => none

/-- Puts values in place of names; `fuel` bounds the characters left. -/
def expandChars (value? : String → Option String) : Nat → List Char → List Char
  | 0, chars => chars
  | _, [] => []
  | fuel + 1, c :: rest =>
    match percentName? (c :: rest) with
    | some (name, after) =>
      let written := '%' :: name ++ ['%']
      let value := (value? (String.ofList name)).elim written String.toList
      value ++ expandChars value? fuel after
    | none => c :: expandChars value? fuel rest

/-- The text with values in place of names between percent signs; unknown names stay. -/
def expand (settings : Settings) (redFile : Path) (text : String) : String :=
  String.ofList (expandChars (nameValue? settings redFile) text.toList.length text.toList)

/-! ### Files -/

/-- The directories of an assignment. -/
def assignedPaths (settings : Settings) (root : Path) (paths : String) : List Path :=
  let parts := (Text.splitWhere (· == ';') paths).map Text.trim
  (parts.filter (!·.isEmpty)).map fun part =>
    (Path.ofProjectText (expand settings root part)).normalize

/-- The file that an inclusion in `path` names. -/
def includedPath (settings : Settings) (root path : Path) (target : String) : Path :=
  path.parentOrHere.resolveAgainst (.ofProjectText (expand settings root target))

/-- How far the reading of redirection files has come. -/
structure Reading where
  /-- The entries read so far. -/
  entries : List Redirection
  /-- The keys of the files that are being read. -/
  chain : List Path
deriving Repr, DecidableEq

namespace Reading

/-- One more entry is read. -/
def add (reading : Reading) (entry : Redirection) : Reading :=
  { reading with entries := reading.entries ++ [entry] }

/-- A file is being read from now on. -/
def enter (reading : Reading) (key : Path) : Reading :=
  { reading with chain := key :: reading.chain }

/-- A file is no longer being read. -/
def leave (reading : Reading) (key : Path) : Reading :=
  { reading with chain := reading.chain.filter (!·.same key) }

end Reading

/-- Reads lines of a file under the heading in force; `takeIn` reads a file that is taken in. -/
def readLines (settings : Settings) (root path : Path) (takeIn : Path → Reading → Reading)
    (heading : String) : List String → Reading → Reading
  | [], reading => reading
  | raw :: rest, reading =>
    match Line.parse? raw with
    | none => readLines settings root path takeIn heading rest reading
    | some (.header name) => readLines settings root path takeIn name rest reading
    | some (.inclusion target) =>
      let reading := takeIn (includedPath settings root path target) reading
      readLines settings root path takeIn heading rest reading
    | some (.assignment mask paths) =>
      let reading := reading.add ⟨heading, mask, assignedPaths settings root paths, path⟩
      readLines settings root path takeIn heading rest reading

/-- Reads the lines of a file that is on the chain, when it is there and can be read. -/
def readContent (files : FileSystem) (settings : Settings) (root path : Path)
    (takeIn : Path → Reading → Reading) (reading : Reading) : Except Failure Unit × Reading :=
  if !files.has path then (.error (.redirectionNotFound path), reading)
  else
    match files.read path with
    | .error reason => (.error (.io reason), reading)
    | .ok content =>
      (.ok (), readLines settings root path takeIn commonHeading (Text.lines content) reading)

/-- What tells files on a chain of inclusions apart. -/
def chainKey (path : Path) : Path :=
  ⟨Text.lowercase path.normalize.text⟩

/-- Reads a file that stands `depth` inclusions deep. It is on the chain while its lines are read, so
that a file which is being read is not taken in again; what goes wrong further down stays there. -/
def readFile (files : FileSystem) (settings : Settings) (root : Path) (depth : Nat) (path : Path)
    (reading : Reading) : Except Failure Unit × Reading :=
  if maxDepth < depth then (.error (.includeTooDeep path depth), reading)
  else
    let key := chainKey path
    if key.isIn reading.chain then (.error (.includeCycle path), reading)
    else
      let takeIn (inner : Path) (reading : Reading) : Reading :=
        (readFile files settings root (depth + 1) inner reading).2
      let (outcome, after) := readContent files settings root path takeIn (reading.enter key)
      (outcome, after.leave key)
termination_by maxDepth + 1 - depth

/-- The entry that every project starts with: any file may stand in the project's own directory. -/
def seed (directory : Path) : Redirection :=
  ⟨commonHeading, everyFile, [⟨"."⟩], directory⟩

/-- The entries of a redirection file, for a project in a directory. -/
def ofFile (files : FileSystem) (settings : Settings) (redFile directory : Path) :
    List Redirection :=
  (readFile files settings redFile 0 redFile ⟨[seed directory], []⟩).2.entries

/-- The redirection file of a directory, or else the one for all projects. -/
def locate? (files : FileSystem) (settings : Settings) (directory : Path) : Option Path :=
  let own := (files.list? directory).bind (·.find? (·.hasFileName settings.redirectionFile))
  own.or (settings.globalRedirection?.filter files.has)

/-- The entries for a project in a directory. -/
def ofDirectory (files : FileSystem) (settings : Settings) (directory : Path) :
    List Redirection :=
  match locate? files settings directory with
  | none => [seed directory]
  | some redFile => ofFile files settings redFile directory

/-! ### Looking up names -/

/-- The mask of the entry accepts a name. A faulty mask accepts none. -/
def maskAccepts (entry : Redirection) (name : String) : Bool :=
  match Mask.parse entry.mask with
  | .ok mask => mask.accepts name
  | .error _ => false

/-- The places where a name may be, in order. -/
def candidates (settings : Settings) (entries : List Redirection) (name : String) (base : Path) :
    List Path :=
  let active := entries.filter fun entry =>
    entry.appliesTo settings.configuration && entry.maskAccepts name
  active.flatMap fun entry => entry.paths.map fun path => (base.resolveAgainst path).join ⟨name⟩

/-- The first place of a name where a file is. -/
def find? (files : FileSystem) (settings : Settings) (entries : List Redirection) (name : String)
    (base : Path) : Option Path :=
  (candidates settings entries name base).find? files.has

/-- The JSON form of an entry. -/
def toJson (entry : Redirection) : Json :=
  .obj [("section", .str entry.heading), ("extension", .str entry.mask),
    ("paths", .arr (entry.paths.map fun path => .str path.text)),
    ("source", .str entry.source.text)]

end Redirection
end Clarion
