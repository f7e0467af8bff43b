import Clarion.Json.Decode
import Clarion.Outline.Symbol

/-! JSON forms of the outline: the full form, which reads back to the same symbols, and the shorter
form for editors. The traits of a symbol stand among its own members. -/
namespace Clarion

/-- The JSON form of a place. -/
def Position.toJson (position : Position) : Json :=
  .obj [("line", .int position.line), ("character", .int position.column)]

/-- The JSON form of a span. -/
def Range.toJson (range : Range) : Json :=
  .obj [("start", range.start.toJson), ("end", range.stop.toJson)]

open Json in
/-- Decodes a place. -/
def Position.ofJson : Decoder Position := fun j => do
  let (line, column) ← fillRecord (σ := Option Nat × Option Nat) [
    ⟨"line", fun j d => return (some (← decodeNat32 j), d.2)⟩,
    ⟨"character", fun j d => return (d.1, some (← decodeNat32 j))⟩] (none, none) j
  return ⟨← required line, ← required column⟩

open Json in
/-- Decodes a span. -/
def Range.ofJson : Decoder Range := fun j => do
  let (start, stop) ← fillRecord (σ := Option Position × Option Position) [
    ⟨"start", fun j d => return (some (← Position.ofJson j), d.2)⟩,
    ⟨"end", fun j d => return (d.1, some (← Position.ofJson j))⟩] (none, none) j
  return ⟨← required start, ← required stop⟩

namespace Outline

/-- A member for a flag that is set. -/
def flagMember (key : String) (flag : Bool) : List (String × Json) :=
  if flag then [(key, .bool true)] else []

/-- A member for a value that is set. -/
def setMember {α : Type} (key : String) (encode : α → Json) :
    Option α → List (String × Json)
  | none => []
  | some value => [(key, encode value)]

/-- The members for the traits that are set. -/
def Traits.members (traits : Traits) : List (String × Json) :=
  flagMember "isMethodImplementation" traits.isMethodImplementation ++
  flagMember "isMethodDeclaration" traits.isMethodDeclaration ++
  flagMember "isGlobalProcedure" traits.isGlobalProcedure ++
  flagMember "isSpecialRoutine" traits.isSpecialRoutine ++
  flagMember "isInterface" traits.isInterface ++
  flagMember "isMapProcedure" traits.isMapProcedure ++
  setMember "finishesAt" (fun line => .int (line : Nat)) traits.finishesAt ++
  setMember "clarionPrefix" .str traits.fieldPrefix ++
  setMember "clarionLabel" .str traits.label ++
  setMember "clarionType" .str traits.dataType ++
  setMember "clarionVarName" .str traits.dataName ++
  flagMember "isPartOfStructure" traits.isPartOfStructure ++
  (if traits.references.isEmpty then []
    else [("possibleReferences", .arr (traits.references.map .str))])

open Json in
/-- The fields of the traits, in the order they have by position. -/
def Traits.slots : List (Slot Traits) := [
  ⟨"isMethodImplementation", fun j t => return { t with isMethodImplementation := ← decodeBool j }⟩,
  ⟨"isMethodDeclaration", fun j t => return { t with isMethodDeclaration := ← decodeBool j }⟩,
  ⟨"isGlobalProcedure", fun j t => return { t with isGlobalProcedure := ← decodeBool j }⟩,
  ⟨"isSpecialRoutine", fun j t => return { t with isSpecialRoutine := ← decodeBool j }⟩,
  ⟨"isInterface", fun j t => return { t with isInterface := ← decodeBool j }⟩,
  ⟨"isMapProcedure", fun j t => return { t with isMapProcedure := ← decodeBool j }⟩,
  ⟨"finishesAt", fun j t => return { t with finishesAt := ← decodeOption decodeNat32 j }⟩,
  ⟨"clarionPrefix", fun j t => return { t with fieldPrefix := ← decodeOption decodeString j }⟩,
  ⟨"clarionLabel", fun j t => return { t with label := ← decodeOption decodeString j }⟩,
  ⟨"clarionType", fun j t => return { t with dataType := ← decodeOption decodeString j }⟩,
  ⟨"clarionVarName", fun j t => return { t with dataName := ← decodeOption decodeString j }⟩,
  ⟨"isPartOfStructure", fun j t => return { t with isPartOfStructure := ← decodeBool j }⟩,
  ⟨"possibleReferences", fun j t => return { t with references := ← decodeList decodeString j }⟩]

/-- Decodes traits on their own. -/
def Traits.ofJson : Json.Decoder Traits :=
  Json.fillRecord Traits.slots {}

/-- Decodes a kind. -/
def Kind.ofJson : Json.Decoder Kind :=
  Json.decodeChoice Kind.names

namespace Symbol

mutual

/-- The full JSON form. -/
def toJson : Symbol → Json
  | ⟨info, children⟩ =>
    .obj ([("name", .str info.name), ("detail", .str info.detail), ("kind", .str info.kind.name),
      ("range", info.range.toJson), ("selectionRange", info.selection.toJson)] ++
      setMember "sortText" .str info.sortText ++ info.traits.members ++
      [("children", .arr (allToJson children))])

/-- The full JSON forms of a forest. -/
def allToJson : List Symbol → List Json
  | [] => []
  | symbol :: rest => toJson symbol :: allToJson rest

end

/-- The full JSON form of an outline. -/
def outlineJson (symbols : List Symbol) : Json :=
  .arr (allToJson symbols)

end Symbol

namespace EditorSymbol

mutual

/-- The JSON form. What is absent is left out. -/
def toJson : EditorSymbol → Json
  | ⟨name, detail, code, range, selection, children⟩ =>
    .obj ([("name", .str name)] ++ setMember "detail" .str detail ++
      [("kind", .int code), ("range", range.toJson), ("selectionRange", selection.toJson)] ++
      childrenMember children)

/-- The member for the children, if there are any. -/
def childrenMember : Option (List EditorSymbol) → List (String × Json)
  | none => []
  | some children => [("children", .arr (allToJson children))]

/-- The JSON forms of a forest. -/
def allToJson : List EditorSymbol → List Json
  | [] => []
  | symbol :: rest => toJson symbol :: allToJson rest

end

end EditorSymbol

namespace Symbol

/-- The form of an outline for editors. -/
def editorJson (symbols : List Symbol) : Json :=
  .arr (EditorSymbol.allToJson (allToEditor symbols))

/-- A symbol whose members are still being read. -/
structure Draft where
  name : Option String := none
  detail : Option String := none
  kind : Option Kind := none
  range : Option Range := none
  selection : Option Range := none
  sortText : Option String := none
  traits : Traits := {}
  children : List Symbol := []

open Json in
/-- The members of a symbol other than its children. -/
def slots : List (Slot Draft) := [
  ⟨"name", fun j d => return { d with name := some (← decodeString j) }⟩,
  ⟨"detail", fun j d => return { d with detail := some (← decodeString j) }⟩,
  ⟨"kind", fun j d => return { d with kind := some (← Kind.ofJson j) }⟩,
  ⟨"range", fun j d => return { d with range := some (← Range.ofJson j) }⟩,
  ⟨"selectionRange", fun j d => return { d with selection := some (← Range.ofJson j) }⟩,
  ⟨"sortText", fun j d => return { d with sortText := ← decodeOption decodeString j }⟩] ++
  Traits.slots.map fun slot =>
    ⟨slot.key, fun j d => return { d with traits := ← slot.fill j d.traits }⟩

/-- The symbol, when no required member is missing. -/
def Draft.finish (draft : Draft) : Except Fault Symbol := do
  return ⟨{
    name := ← Json.required draft.name
    detail := ← Json.required draft.detail
    kind := ← Json.required draft.kind
    range := ← Json.required draft.range
    selection := ← Json.required draft.selection
    sortText := draft.sortText
    traits := draft.traits }, draft.children⟩

mutual

/-- Decodes a symbol from its full form. Members of other names are passed over. -/
def ofJson : Json → Except Fault Symbol
  | .obj members stop => do
    let draft ← fillDraft [] {} members
    Json.unlessStopped (stop.map Stop.fault) ()
    draft.finish
  | other => .error other.misfit

/-- Fills a symbol from members, each name at most once. -/
def fillDraft (filled : List String) (draft : Draft) : List (String × Json) → Except Fault Draft
  | [] => .ok draft
  | (key, value) :: rest =>
    if filled.contains key then .error .mistyped
    else if key == "children" then do
      let children ← childrenOfJson value
      fillDraft (key :: filled) { draft with children := children } rest
    else
      match slots.find? (·.key == key) with
      | none =>
        match value.skip with
        | some fault => .error fault
        | none => fillDraft filled draft rest
      | some slot => do
        let draft ← slot.fill value draft
        fillDraft (key :: filled) draft rest

/-- Decodes the list of children. -/
def childrenOfJson : Json → Except Fault (List Symbol)
  | .arr items stop => do
    let symbols ← allOfJson items
    Json.unlessStopped stop symbols
  | other => .error other.misfit

/-- Decodes the symbols of a forest. -/
def allOfJson : List Json → Except Fault (List Symbol)
  | [] => .ok []
  | item :: rest => do
    let symbol ← ofJson item
    let symbols ← allOfJson rest
    return symbol :: symbols

end

end Symbol
end Outline
end Clarion
