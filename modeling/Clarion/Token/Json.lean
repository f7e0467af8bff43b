import Clarion.Json.Decode
import Clarion.Token.Basic

/-! The JSON form of tokens. Absent options are left out when a token is written, and may be absent
or `null` when it is read. -/
namespace Clarion.Token

/-- Every category with its written name. -/
def Kind.names : List (String × Kind) := [
  ("Comment", .comment), ("String", .stringLiteral), ("Keyword", .keyword),
  ("Directive", .directive), ("Function", .function), ("Variable", .variableName),
  ("Number", .number), ("Operator", .operator), ("Class", .className),
  ("Attribute", .attributeWord), ("Property", .property), ("PropertyFunction", .propertyFunction),
  ("Constant", .constantWord), ("Type", .typeName), ("TypeAnnotation", .annotatedType),
  ("ImplicitVariable", .implicitVariable), ("Structure", .structureWord),
  ("ReferenceVariable", .referenceVariable), ("LineContinuation", .lineContinuation),
  ("Delimiter", .delimiter), ("FunctionArgumentParameter", .argument),
  ("PointerParameter", .pointer), ("FieldEquateLabel", .fieldEquate),
  ("ClarionDocument", .document), ("Procedure", .procedure), ("Routine", .routine),
  ("ExecutionMarker", .executionMarker), ("Label", .label), ("EndStatement", .endStatement),
  ("StructurePrefix", .structurePrefix), ("StructureField", .structureField),
  ("WindowElement", .windowElement), ("ColorValue", .colorValue), ("Unknown", .unknown)]

/-- The written name of a category. -/
def Kind.name : Kind → String
  | .comment => "Comment"
  | .stringLiteral => "String"
  | .keyword => "Keyword"
  | .directive => "Directive"
  | .function => "Function"
  | .variableName => "Variable"
  | .number => "Number"
  | .operator => "Operator"
  | .className => "Class"
  | .attributeWord => "Attribute"
  | .property => "Property"
  | .propertyFunction => "PropertyFunction"
  | .constantWord => "Constant"
  | .typeName => "Type"
  | .annotatedType => "TypeAnnotation"
  | .implicitVariable => "ImplicitVariable"
  | .structureWord => "Structure"
  | .referenceVariable => "ReferenceVariable"
  | .lineContinuation => "LineContinuation"
  | .delimiter => "Delimiter"
  | .argument => "FunctionArgumentParameter"
  | .pointer => "PointerParameter"
  | .fieldEquate => "FieldEquateLabel"
  | .document => "ClarionDocument"
  | .procedure => "Procedure"
  | .routine => "Routine"
  | .executionMarker => "ExecutionMarker"
  | .label => "Label"
  | .endStatement => "EndStatement"
  | .structurePrefix => "StructurePrefix"
  | .structureField => "StructureField"
  | .windowElement => "WindowElement"
  | .colorValue => "ColorValue"
  | .unknown => "Unknown"

/-- Every role with its written name. -/
def Role.names : List (String × Role) := [
  ("Procedure", .procedure), ("GlobalProcedure", .globalProcedure),
  ("MethodImplementation", .methodImplementation), ("MethodDeclaration", .methodDeclaration),
  ("MapProcedure", .mapProcedure), ("InterfaceMethod", .interfaceMethod), ("Routine", .routine),
  ("Class", .classDefinition)]

/-- The written name of a role. -/
def Role.name : Role → String
  | .procedure => "Procedure"
  | .globalProcedure => "GlobalProcedure"
  | .methodImplementation => "MethodImplementation"
  | .methodDeclaration => "MethodDeclaration"
  | .mapProcedure => "MapProcedure"
  | .interfaceMethod => "InterfaceMethod"
  | .routine => "Routine"
  | .classDefinition => "Class"

/-- Both sections with their written names. -/
def Section.names : List (String × Section) := [("CODE", .code), ("DATA", .data)]

/-- The written name of a section. -/
def Section.name : Section → String
  | .code => "CODE"
  | .data => "DATA"

/-- A token whose fields are still being read. -/
structure Draft where
  kind : Option Kind := none
  role : Option Role := none
  value : Option String := none
  line : Option Nat := none
  start : Option Nat := none
  finishesAt : Option Nat := none
  label : Option String := none
  bodySection : Option Section := none
  fieldPrefix : Option String := none
  hasLocalData : Option Bool := none

open Json in
/-- The fields of a token, in the order they have by position. -/
def slots : List (Slot Draft) := [
  ⟨"type", fun j d => return { d with kind := some (← decodeChoice Kind.names j) }⟩,
  ⟨"subType", fun j d => return { d with role := ← decodeOption (decodeChoice Role.names) j }⟩,
  ⟨"value", fun j d => return { d with value := some (← decodeString j) }⟩,
  ⟨"line", fun j d => return { d with line := some (← decodeNat32 j) }⟩,
  ⟨"start", fun j d => return { d with start := some (← decodeNat32 j) }⟩,
  ⟨"finishesAt", fun j d => return { d with finishesAt := ← decodeOption decodeNat32 j }⟩,
  ⟨"label", fun j d => return { d with label := ← decodeOption decodeString j }⟩,
  ⟨"executionMarker", fun j d =>
    return { d with bodySection := ← decodeOption (decodeChoice Section.names) j }⟩,
  ⟨"structurePrefix", fun j d => return { d with fieldPrefix := ← decodeOption decodeString j }⟩,
  ⟨"hasLocalData", fun j d => return { d with hasLocalData := ← decodeOption decodeBool j }⟩]

/-- The token, when no required field is missing. -/
def Draft.finish (draft : Draft) : Except Fault Token := do
  return {
    kind := ← Json.required draft.kind
    role := draft.role
    value := ← Json.required draft.value
    line := ← Json.required draft.line
    start := ← Json.required draft.start
    finishesAt := draft.finishesAt
    label := draft.label
    bodySection := draft.bodySection
    fieldPrefix := draft.fieldPrefix
    hasLocalData := draft.hasLocalData }

/-- Decodes one token. -/
def ofJson : Json.Decoder Token := fun j => do
  let draft ← Json.fillRecord slots {} j
  draft.finish

/-- Decodes a list of tokens. -/
def listOfJson : Json.Decoder (List Token) :=
  Json.decodeList ofJson

/-- Reads a list of tokens from text. -/
def listOfText (text : String) : Except Fault (List Token) :=
  Json.decodeText listOfJson text

/-- A member for an option that is set. -/
def optionMember {α : Type} (key : String) (encode : α → Json) : Option α → List (String × Json)
  | none => []
  | some value => [(key, encode value)]

/-- The JSON form of a token. -/
def toJson (token : Token) : Json :=
  .obj ([("type", .str token.kind.name)] ++
    optionMember "subType" (fun role => .str role.name) token.role ++
    [("value", .str token.value), ("line", .int token.line), ("start", .int token.start)] ++
    optionMember "finishesAt" (fun line => .int (line : Nat)) token.finishesAt ++
    optionMember "label" .str token.label ++
    optionMember "executionMarker" (fun part => .str part.name) token.bodySection ++
    optionMember "structurePrefix" .str token.fieldPrefix ++
    optionMember "hasLocalData" .bool token.hasLocalData)

end Clarion.Token
