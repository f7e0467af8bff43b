import Clarion.Files
import Clarion.Json.Basic
import Clarion.Text.WordTable

/-! An index of class definitions: lines that start with a label followed by `CLASS`. -/
namespace Clarion

/-- A class definition. -/
structure ClassDefinition where
  name : String
  file : Path
  /-- The line of the definition, from zero. It stands for a number of 32 bits, which the lines of a
  file below 4 GiB never leave. -/
  line : Nat
  parent : Option String
  /-- The definition has the `TYPE` attribute. -/
  isType : Bool
deriving Repr, DecidableEq

namespace ClassDefinition

/-- A character that counts as a letter of a label: `A` to `Z` in either case, and the two signs
that letter case takes to `s` and `k`. -/
def isLetter (c : Char) : Bool :=
  c.isAlpha || c == Char.ofNat 0x17F || c == Char.ofNat 0x212A

/-- A character that a label may start with. -/
def startsLabel (c : Char) : Bool :=
  isLetter c || c == '_'

/-- A character inside a label. -/
def inLabel (c : Char) : Bool :=
  startsLabel c || c.isDigit || c == ':'

/-- A label at the start, and the characters after it. -/
def label? : List Char → Option (List Char × List Char)
  | [] => none
  | c :: rest =>
    if startsLabel c then some (c :: rest.takeWhile inLabel, rest.dropWhile inLabel) else none

private def classLetter (letter c : Char) : Bool :=
  c.toLower == letter || (letter == 's' && c == Char.ofNat 0x17F)

/-- The characters after the word `class`, up to letter case, where the word ends there. -/
def afterClass? : List Char → Option (List Char)
  | a :: b :: c :: d :: e :: rest =>
    let spelled := classLetter 'c' a && classLetter 'l' b && classLetter 'a' c &&
      classLetter 's' d && classLetter 's' e
    if spelled && !rest.head?.any Text.isWordChar then some rest else none
  | _ => none

private def dropBlanks (chars : List Char) : List Char :=
  chars.dropWhile Text.isBlank

/-- The parent in parentheses at the start, which may be left out, and the characters after. -/
def parents? : List Char → Option (Option (List Char) × List Char)
  | '(' :: rest =>
    let inner := dropBlanks rest
    let (parent, after) :=
      match label? inner with
      | some (name, after) => (some name, after)
      | none => (none, inner)
    match dropBlanks after with
    | ')' :: left => some (parent, left)
    | _ => none
  | _ => none

/-- A class definition on a line: its label, its parent, and whether it is a type. -/
def ofLine? (line : String) : Option (String × Option String × Bool) := do
  let (name, rest) ← label? line.toList
  if !rest.head?.any Text.isBlank then none
  else
    let after ← afterClass? (dropBlanks rest)
    let after := dropBlanks after
    let (parent, attributes) := (parents? after).getD (none, after)
    let written := attributes.takeWhile (· != '!')
    let isType := (Text.splitChars (· == ',') written).any fun part =>
      Text.sameFold (String.ofList (Text.trimChars part)) "TYPE"
    return (String.ofList name, parent.map String.ofList, isType)

/-- The definitions of a file, in order. -/
def ofSource (file : Path) (content : String) : List ClassDefinition :=
  ((Text.lines content).mapIdx fun line text =>
    (ofLine? text).map fun (name, parent, isType) =>
      { name, file, line, parent, isType : ClassDefinition }).filterMap id

/-- The JSON form of a definition. -/
def toJson (definition : ClassDefinition) : Json :=
  .obj [("name", .str definition.name), ("file", .str definition.file.text),
    ("line", .int definition.line), ("parentClass", definition.parent.elim .null .str),
    ("isType", .bool definition.isType)]

end ClassDefinition

/-- Class definitions under the capital form of their names, those of one class in the order in which
they were indexed. -/
structure ClassIndex where
  classes : List (String × List ClassDefinition) := []
deriving Repr, DecidableEq

namespace ClassIndex

/-- The files of a directory that are looked through for classes. -/
def isIndexed (path : Path) : Bool :=
  (path.fileName?.bind Path.dottedExtension?).any fun extension =>
    extension == ".inc" || extension == ".clw"

/-- The classes with a definition put last under a key. -/
def putLast (key : String) (definition : ClassDefinition) :
    List (String × List ClassDefinition) → List (String × List ClassDefinition)
  | [] => [(key, [definition])]
  | (other, held) :: rest =>
    if other = key then (other, held ++ [definition]) :: rest
    else (other, held) :: putLast key definition rest

/-- The index with one more definition. -/
def record (index : ClassIndex) (definition : ClassDefinition) : ClassIndex :=
  ⟨putLast (Text.foldUpper definition.name) definition index.classes⟩

/-- The index with the definitions of one more file. -/
def addSource (index : ClassIndex) (file : Path) (content : String) : ClassIndex :=
  (ClassDefinition.ofSource file content).foldl record index

/-- The files to look through: each once, in the order of the directories that list them. -/
def sourceFiles (files : FileSystem) (directories : List Path) : List Path :=
  Path.distinct (directories.flatMap fun directory =>
    ((files.list? directory).getD []).filter isIndexed)

/-- The index of the files right inside directories. What cannot be read is left out. -/
def build (files : FileSystem) (directories : List Path) : ClassIndex :=
  (sourceFiles files directories).foldl (fun index file =>
    match files.read file with
    | .ok content => index.addSource file content
    | .error _ => index) {}

/-- The definitions of a class, up to letter case and blanks around the name. -/
def find (index : ClassIndex) (name : String) : List ClassDefinition :=
  (index.classes.lookup (Text.foldUpper (Text.trim name))).getD []

/-- The number of classes, up to letter case. -/
def classCount (index : ClassIndex) : Nat :=
  index.classes.length

/-- No class is indexed. -/
def isEmpty (index : ClassIndex) : Bool :=
  index.classes.isEmpty

end ClassIndex
end Clarion
