import Clarion.Text.Basic

/-! Tokens of a source document, as the lexer hands them over: a category, the text, where it
stands, and what the lexer knows about the block that the token opens. -/
namespace Clarion

namespace Token

/-- The lexical category of a token. -/
inductive Kind where
  | comment | stringLiteral | keyword | directive | function | variableName | number | operator
  | className | attributeWord | property | propertyFunction | constantWord | typeName
  | annotatedType | implicitVariable | structureWord | referenceVariable | lineContinuation
  | delimiter | argument | pointer | fieldEquate | document | procedure | routine
  | executionMarker | label | endStatement | structurePrefix | structureField | windowElement
  | colorValue | unknown
deriving Repr, DecidableEq, Inhabited

/-- What a procedure-like token introduces. -/
inductive Role where
  | procedure | globalProcedure | methodImplementation | methodDeclaration | mapProcedure
  | interfaceMethod | routine | classDefinition
deriving Repr, DecidableEq

/-- A prototype: it stands inside a map, a class or an interface, and has no body. -/
def Role.isDeclaration : Role → Bool
  | .methodDeclaration | .mapProcedure | .interfaceMethod => true
  | _ => false

/-- The section of a body that a token stands in. -/
inductive Section where
  | code | data
deriving Repr, DecidableEq

end Token

/-- One lexical unit of a document. Lines and columns count from zero, in 32 bits. -/
structure Token where
  kind : Token.Kind
  role : Option Token.Role := none
  value : String
  line : Nat
  start : Nat
  /-- The line on which the block opened here closes, when the lexer knows it. -/
  finishesAt : Option Nat := none
  label : Option String := none
  bodySection : Option Token.Section := none
  fieldPrefix : Option String := none
  hasLocalData : Option Bool := none
deriving Repr, DecidableEq, Inhabited

namespace Token

/-- The column just past the last character. Columns wrap around: past the last number of 32 bits
they go on from zero. -/
def stop (token : Token) : Nat :=
  (token.start + token.value.length) % 4294967296

/-- The token reads `text`, up to letter case. -/
def reads (token : Token) (text : String) : Bool :=
  Text.sameFold token.value text

/-- The token reads one of the words, up to letter case. -/
def readsOneOf (token : Token) (words : List String) : Bool :=
  words.any token.reads

/-- A comment, by its category or by its leading `!`. -/
def isComment (token : Token) : Bool :=
  token.kind == .comment || token.value.toList.head? == some '!'

/-- The mark that lets a statement go on in the next line. -/
def isContinuation (token : Token) : Bool :=
  token.kind == .lineContinuation || token.value == "|"

/-- An opening parenthesis. -/
def isOpen (token : Token) : Bool := token.value == "("

/-- A closing parenthesis. -/
def isClose (token : Token) : Bool := token.value == ")"

/-- A comma. -/
def isComma (token : Token) : Bool := token.value == ","

/-- The token introduces a prototype. -/
def isDeclaration (token : Token) : Bool :=
  token.role.any Role.isDeclaration

end Token
end Clarion
