import Clarion.Json.Basic
import Clarion.Project.Failure
import Clarion.Project.Uuid
import Clarion.Text.Basic
import Clarion.Xml.Reference

/-! Project files: the properties that identify a project, and the items it is made of. -/
namespace Clarion

/-- A reference from one project to another. -/
structure ProjectReference where
  target : String
  project : Option Uuid := none
  name : Option String := none
deriving Repr, DecidableEq

/-- What a project file says. Items are kept as written. -/
structure ProjectFile where
  guid : Option Uuid := none
  assemblyName : Option String := none
  outputName : Option String := none
  model : Option String := none
  outputType : Option String := none
  compile : List String := []
  fileDrivers : List String := []
  libraries : List String := []
  projectReferences : List ProjectReference := []
  others : List String := []
deriving Repr, DecidableEq

namespace ProjectFile

/-- The name a project goes by. -/
def displayName? (file : ProjectFile) : Option String :=
  file.assemblyName.or file.outputName

/-- The value of the first `Include` attribute, without blanks around it. Attributes are looked at
from left to right up to that one, and each may stand once; `fuel` bounds how many are left. -/
def includeFrom : Nat → List (List Char) → List Char → Except MarkupFault (Option String)
  | 0, _, _ => .ok none
  | fuel + 1, seen, chars =>
    match Xml.nextAttribute chars with
    | none => .ok none
    | some (.error _) => .error .attributeList
    | some (.ok (key, raw, rest)) =>
      if seen.contains key then .error .attributeList
      else if Text.sameFold (String.ofList (Xml.localName key)) "Include" then
        match Xml.resolve? raw with
        | none => .error .attributeValue
        | some value => .ok (some (String.ofList (Text.trimChars value)))
      else includeFrom fuel (key :: seen) rest

/-- The value of the first `Include` attribute. -/
def includeValue (attributes : List Char) : Except MarkupFault (Option String) :=
  includeFrom (attributes.length + 1) [] attributes

/-- A project file while its events come in. -/
structure Reader where
  file : ProjectFile := {}
  /-- Names of the open elements in small letters, innermost first. -/
  elements : List String := []
  /-- The reference whose element is open. -/
  reference : Option ProjectReference := none
deriving Repr, DecidableEq

/-- The name of an element as it is compared. -/
def elementName (name : List Char) : String :=
  Text.foldLower (String.ofList (Xml.localName name))

namespace Reader

/-- Files an item of a group under its name. -/
def addItem (reader : Reader) (name target : String) (isEmpty : Bool) : Reader :=
  let file := reader.file
  match name with
  | "compile" => { reader with file := { file with compile := file.compile ++ [target] } }
  | "filedriver" => { reader with file := { file with fileDrivers := file.fileDrivers ++ [target] } }
  | "library" => { reader with file := { file with libraries := file.libraries ++ [target] } }
  | "none" => { reader with file := { file with others := file.others ++ [target] } }
  | "projectreference" =>
    let reference : ProjectReference := { target }
    if isEmpty then
      let references := file.projectReferences ++ [reference]
      { reader with file := { file with projectReferences := references } }
    else { reader with reference := some reference }
  | _ => reader

/-- An element starts. Attributes count only right inside a group of items. -/
def onStart (reader : Reader) (name attributes : List Char) (isEmpty : Bool) :
    Except MarkupFault Reader := do
  let name := elementName name
  let reader ←
    if reader.elements.head? == some "itemgroup" then do
      let target ← includeValue attributes
      pure (reader.addItem name (target.getD "") isEmpty)
    else pure reader
  return if isEmpty then reader else { reader with elements := name :: reader.elements }

/-- An element ends. -/
def onEnd (reader : Reader) : Reader :=
  let closed := { reader with elements := reader.elements.tail }
  match reader.elements.head?, reader.reference with
  | some "projectreference", some reference =>
    let file := reader.file
    { closed with
      reference := none
      file := { file with projectReferences := file.projectReferences ++ [reference] } }
  | _, _ => closed

/-- A property that takes the first text that is not empty. -/
def setOnce (property : Option String) (value : String) : Option String :=
  if property.isNone && !value.isEmpty then some value else property

/-- Text inside an element that counts by its name and the name of the element around it. -/
def onText (reader : Reader) (value : String) : Reader :=
  let file := reader.file
  match reader.elements with
  | current :: "propertygroup" :: _ =>
    match current with
    | "projectguid" => { reader with file := { file with guid := file.guid.or (Uuid.parse? value) } }
    | "assemblyname" =>
      { reader with file := { file with assemblyName := setOnce file.assemblyName value } }
    | "outputname" =>
      { reader with file := { file with outputName := setOnce file.outputName value } }
    | "model" => { reader with file := { file with model := setOnce file.model value } }
    | "outputtype" =>
      { reader with file := { file with outputType := setOnce file.outputType value } }
    | _ => reader
  | current :: "projectreference" :: _ =>
    match current, reader.reference with
    | "project", some reference =>
      { reader with reference := some { reference with project := Uuid.parse? value } }
    | "name", some reference =>
      { reader with reference := some { reference with name := some value } }
    | _, _ => reader
  | _ => reader

/-- The reader after one event. -/
def step (reader : Reader) : Xml.Event → Except MarkupFault Reader
  | .opening name attributes => reader.onStart name attributes false
  | .empty name attributes => reader.onStart name attributes true
  | .closing => .ok reader.onEnd
  | .text raw =>
    match Xml.resolve? raw with
    | none => .error .text
    | some value => .ok (reader.onText (String.ofList (Text.trimChars value)))

/-- The reader after events. -/
def run (reader : Reader) (events : List Xml.Event) : Except MarkupFault Reader :=
  events.foldlM step reader

end Reader

/-- Reads a project file. -/
def parse (content : String) : Except MarkupFault ProjectFile := do
  let (events, isFaulty) := Xml.events content
  let reader ← Reader.run {} events
  if isFaulty then .error .tag
  else if reader.elements.isEmpty then .ok reader.file
  else .error .unclosed

private def textOrNull (text : Option String) : Json :=
  text.elim .null .str

private def uuidOrNull (uuid : Option Uuid) : Json :=
  uuid.elim .null fun uuid => .str uuid.text

/-- The JSON form of a reference. -/
def referenceJson (reference : ProjectReference) : Json :=
  .obj [("include", .str reference.target), ("project", uuidOrNull reference.project),
    ("name", textOrNull reference.name)]

/-- The JSON form of a project file. -/
def toJson (file : ProjectFile) : Json :=
  .obj [("guid", uuidOrNull file.guid), ("assemblyName", textOrNull file.assemblyName),
    ("outputName", textOrNull file.outputName), ("model", textOrNull file.model),
    ("outputType", textOrNull file.outputType), ("compile", .arr (file.compile.map .str)),
    ("fileDrivers", .arr (file.fileDrivers.map .str)),
    ("libraries", .arr (file.libraries.map .str)),
    ("projectReferences", .arr (file.projectReferences.map referenceJson)),
    ("none", .arr (file.others.map .str))]

end ProjectFile
end Clarion
