import Clarion.Json.Basic
import Clarion.Path
import Clarion.Project.Uuid

/-! Solution files: the lines that name projects. -/
namespace Clarion

/-- A project that a solution file names. -/
structure SolutionEntry where
  typeGuid : Option Uuid
  name : String
  /-- The path as written. -/
  relativePath : String
  /-- The path seen from the directory of the solution. -/
  path : Path
  guid : Option Uuid
deriving Repr, DecidableEq

namespace SolutionFile

/-- The four texts in quotes on a project line. -/
structure Fields where
  typeGuid : List Char
  name : List Char
  path : List Char
  guid : List Char
deriving Repr, DecidableEq

/-- The characters after a word they start with. -/
def afterWord? : List Char → List Char → Option (List Char)
  | [], chars => some chars
  | w :: word, c :: rest => if w = c then afterWord? word rest else none
  | _ :: _, [] => none

/-- A text in quotes at the start, and the characters after it. -/
def quoted? : List Char → Option (List Char × List Char)
  | '"' :: rest =>
    match rest.dropWhile (· != '"') with
    | _ :: after => some (rest.takeWhile (· != '"'), after)
    | [] => none
  | _ => none

private def dropBlank (chars : List Char) : List Char :=
  chars.dropWhile Text.isBlank

/-- A text in quotes after a sign, with any blanks around the sign. -/
def signedQuote? (sign : Char) (chars : List Char) : Option (List Char × List Char) := do
  let after ← afterWord? [sign] (dropBlank chars)
  quoted? (dropBlank after)

/-- A project line after any blanks, and the characters after its last quote. -/
def projectLine? (chars : List Char) : Option (Fields × List Char) := do
  let afterHead ← afterWord? "Project(".toList (dropBlank chars)
  let (typeGuid, rest) ← quoted? afterHead
  let rest ← afterWord? [')'] rest
  let (name, rest) ← signedQuote? '=' rest
  let (path, rest) ← signedQuote? ',' rest
  let (guid, rest) ← signedQuote? ',' rest
  return (⟨typeGuid, name, path, guid⟩, rest)

/-- Project lines from left to right, each starting where a line starts; `fuel` bounds the
characters left. -/
def fieldsFrom : Nat → Bool → List Char → List Fields
  | 0, _, _ => []
  | fuel + 1, atLineStart, chars =>
    match if atLineStart then projectLine? chars else none with
    | some (fields, rest) => fields :: fieldsFrom fuel false rest
    | none =>
      match chars with
      | [] => []
      | c :: rest => fieldsFrom fuel (c == '\n') rest

/-- The entry of a project line, seen from a directory, when it names a project of the language. -/
def entryOf? (directory : Path) (fields : Fields) : Option SolutionEntry :=
  let relativePath := String.ofList (Text.trimChars fields.path)
  if Text.endsWithFold relativePath ".cwproj" then
    some {
      typeGuid := Uuid.parse? (String.ofList fields.typeGuid)
      name := String.ofList (Text.trimChars fields.name)
      relativePath
      path := directory.resolveAgainst (.ofProjectText relativePath)
      guid := Uuid.parse? (String.ofList fields.guid) }
  else none

/-- The projects that a solution file names, in order. -/
def parse (content : String) (path : Path) : List SolutionEntry :=
  let chars := content.toList
  (fieldsFrom (chars.length + 1) true chars).filterMap (entryOf? path.parentOrHere)

end SolutionFile

/-- The JSON form of an entry. -/
def SolutionEntry.toJson (entry : SolutionEntry) : Json :=
  let uuid (value : Option Uuid) : Json := value.elim .null fun uuid => .str uuid.text
  .obj [("typeGuid", uuid entry.typeGuid), ("name", .str entry.name),
    ("relativePath", .str entry.relativePath), ("path", .str entry.path.text),
    ("guid", uuid entry.guid)]

end Clarion
