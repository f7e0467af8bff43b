import Clarion.Text.Basic

/-! Paths with `/` between their parts. A path keeps the spelling it was written with; its parts say
which file it names: repeated and trailing separators and inner `.` parts do not count, and `..`
is kept, since only the disk knows what it leads to. -/
namespace Clarion

/-- A part of a path. -/
inductive Part where
  /-- The root that an absolute path starts at. -/
  | root
  /-- A `.` at the start of a relative path. -/
  | here
  /-- A `..`. -/
  | up
  | name (chars : List Char)
deriving Repr, DecidableEq

/-- How a part is written. -/
def Part.chars : Part → List Char
  | .root => []
  | .here => ['.']
  | .up => ['.', '.']
  | .name chars => chars

/-- A path as it is written. -/
structure Path where
  text : String
deriving Repr, DecidableEq, Inhabited

namespace Path

/-- The segments between separators. -/
def segments (chars : List Char) : List (List Char) :=
  Text.splitChars (· == '/') chars

/-- The part that a segment stands for, inside a path. -/
def partOf? (segment : List Char) : Option Part :=
  if segment = [] ∨ segment = ['.'] then none
  else if segment = ['.', '.'] then some .up
  else some (.name segment)

/-- The parts of written characters. -/
def partsOf (chars : List Char) : List Part :=
  match segments chars with
  | [] => []
  | [[]] => []
  | [] :: rest => .root :: rest.filterMap partOf?
  | ['.'] :: rest => .here :: rest.filterMap partOf?
  | first :: rest => (first :: rest).filterMap partOf?

/-- The parts of a path. -/
def parts (path : Path) : List Part :=
  partsOf path.text.toList

/-- Two paths have the same parts. -/
def same (left right : Path) : Bool :=
  left.parts == right.parts

/-- The path starts at the root. -/
def isAbsolute (path : Path) : Bool :=
  path.text.toList.head? == some '/'

/-- `path` seen from `base`: an absolute path stands for itself. -/
def join (base path : Path) : Path :=
  if path.isAbsolute then path
  else
    let front := base.text.toList
    let needsSlash := !front.isEmpty && front.getLast? != some '/'
    ⟨String.ofList (front ++ (if needsSlash then ['/'] else []) ++ path.text.toList)⟩

/-- Written parts, with separators between them. -/
def joinSegments : List (List Char) → List Char
  | [] => []
  | [segment] => segment
  | segment :: rest => segment ++ '/' :: joinSegments rest

/-- One step of resolving `.` and `..`: `stack` holds the parts so far, last first. -/
def resolvePart (stack : List Part) (part : Part) : List Part :=
  match part, stack with
  | .here, _ => stack
  | .up, .name _ :: rest => rest
  | .up, _ => if stack.contains .root then stack else .up :: stack
  | _, _ => part :: stack

/-- The spelling of resolved parts: `/` for the root alone, and `.` for no part at all. -/
def ofParts (parts : List Part) : Path :=
  ⟨String.ofList <|
    match parts with
    | [] => ['.']
    | [.root] => ['/']
    | parts => joinSegments (parts.map Part.chars)⟩

/-- The path with `.` and `..` resolved by its spelling alone. -/
def normalize (path : Path) : Path :=
  ofParts (path.parts.foldl resolvePart []).reverse

/-- `path` seen from `base`, with `.` and `..` resolved. -/
def resolveAgainst (base path : Path) : Path :=
  if path.isAbsolute then path.normalize else (base.join path).normalize

/-- A path as project files write it: without blanks around, and with either kind of separator. -/
def ofProjectText (text : String) : Path :=
  ⟨String.ofList ((Text.trimChars text.toList).map fun c => if c == '\\' then '/' else c)⟩

private def dropIdle (segments : List (List Char)) : List (List Char) :=
  segments.dropWhile fun segment => segment == [] || segment == ['.']

/-- The written path without its last part; nothing for the root and for the empty path. -/
def parent? (path : Path) : Option Path :=
  let chars := path.text.toList
  let startsHere := (segments chars).head? == some ['.']
  let lead := if path.isAbsolute || startsHere then chars.take 1 else []
  match dropIdle (segments (chars.drop lead.length)).reverse with
  | _ :: rest => some ⟨String.ofList (lead ++ joinSegments (dropIdle rest).reverse)⟩
  | [] => if startsHere then some ⟨""⟩ else none

/-- The directory that holds the path, `.` for a path without one. -/
def parentOrHere (path : Path) : Path :=
  path.parent?.getD ⟨"."⟩

/-- The name of the file, when the last part is a name. -/
def fileName? (path : Path) : Option String :=
  match path.parts.getLast? with
  | some (.name chars) => some (String.ofList chars)
  | _ => none

/-- A file name cut at its last period. A period at the start does not count. -/
def cutExtension (name : String) : String × Option String :=
  match Text.cutChars '.' name.toList.reverse with
  | some (_, []) => (name, none)
  | some (extension, stem) =>
    (String.ofList stem.reverse, some (String.ofList extension.reverse))
  | none => (name, none)

/-- The file name without its extension. -/
def stem? (path : Path) : Option String :=
  path.fileName?.map fun name => (cutExtension name).1

/-- What follows the last period of the file name. -/
def extension? (path : Path) : Option String :=
  path.fileName?.bind fun name => (cutExtension name).2

/-- The path with another file name in its place. -/
def withFileName (path : Path) (name : String) : Path :=
  if path.fileName?.isSome then (path.parent?.getD ⟨""⟩).join ⟨name⟩ else path.join ⟨name⟩

/-- The file name is `name`, up to letter case. -/
def hasFileName (path : Path) (name : String) : Bool :=
  path.fileName?.any (Text.sameFold · name)

/-- The extension of a name in small letters with its period. -/
def dottedExtension? (name : String) : Option String :=
  (extension? ⟨name⟩).map fun extension => "." ++ Text.foldLower extension

/-- The extension that `clw`, `.CLW` and `*.clw` all mean, in small letters with its period. -/
def normalizeExtension (extension : String) : String :=
  let bare := (Text.trimChars extension.toList).dropWhile (· == '*')
  "." ++ Text.foldLower (String.ofList (bare.dropWhile (· == '.')))

/-- The path is among the paths. -/
def isIn (path : Path) (paths : List Path) : Bool :=
  paths.any (·.same path)

/-- Each path once, in order of first occurrence, after those already `seen`. -/
def distinctAfter (seen : List Path) : List Path → List Path
  | [] => []
  | path :: rest =>
    if path.isIn seen then distinctAfter seen rest
    else path :: distinctAfter (seen ++ [path]) rest

/-- Each path once, in order of first occurrence. -/
def distinct (paths : List Path) : List Path :=
  distinctAfter [] paths

end Path
end Clarion
