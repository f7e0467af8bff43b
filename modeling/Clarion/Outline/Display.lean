import Clarion.Outline.Symbol
import Clarion.Token.Block
import Clarion.Token.Paren

/-! What the outline shows for a declaration: the text, read off its logical line, and the span in
the document. -/
namespace Clarion.Outline

/-- The kind of symbol that a structure word declares. -/
def Kind.ofStructureWord (word : String) : Kind :=
  if Text.isOneOfFold word ["CLASS"] then .classDecl
  else if Text.isOneOfFold word ["INTERFACE"] then .interfaceDecl
  else if Text.isOneOfFold word ["MAP", "MODULE"] then .moduleDecl
  else if Text.isOneOfFold word ["WINDOW", "APPLICATION", "REPORT"] then .window
  else if Text.isOneOfFold word ["SHEET", "TAB", "MENU", "MENUBAR", "TOOLBAR", "OPTION", "OLE",
      "DETAIL", "HEADER", "FOOTER", "FORM"] then .control
  else .structureDecl

/-- The opening line of a structure, taken apart. -/
structure Header where
  keyword : String := ""
  /-- The text in parentheses right after the keyword. -/
  args : Option String := none
  /-- The whole declaration from the keyword on. -/
  signature : String := ""
  pre : Option String := none
  use : Option String := none
  /-- The declaration that this one lies over. -/
  overlaid : Option String := none
  dim : Option String := none
  driver : Option String := none
  external : Option String := none
deriving Repr, DecidableEq

/-- The text between the parenthesis at `start` and its partner on the same logical line. -/
def parenText? (tokens : Tokens) (start limit : Nat) : Option String :=
  (tokens.matchingParen start limit).map fun close => (tokens.slice (start + 1) close).render

/-- Takes apart the opening line of the structure at an index. -/
def Header.ofTokens (tokens : Tokens) (index : Nat) : Header :=
  match tokens[index]? with
  | none => {}
  | some token =>
    let stop := tokens.logicalLineEnd index
    let find := tokens.findAttribute (index + 1) stop
    { keyword := token.value
      args := parenText? tokens (index + 1) stop
      signature := (tokens.slice index stop).render
      pre := find "PRE"
      use := find "USE"
      overlaid := find "OVER"
      dim := find "DIM"
      driver := find "DRIVER"
      external := find "NAME" }

private def attributeText (name : String) (value : Option String) : String :=
  value.elim "" fun text => "," ++ name ++ "(" ++ text ++ ")"

/-- What a structure without a label is called: its keyword, arguments and telling attributes. -/
def Header.unlabeledName (header : Header) : String :=
  header.keyword ++ header.args.elim "" (fun args => "(" ++ args ++ ")") ++
    attributeText "DRIVER" header.driver ++ attributeText "PRE" header.pre ++
    attributeText "OVER" header.overlaid ++ attributeText "DIM" header.dim ++
    (if header.args.isNone then attributeText "NAME" header.external else "")

/-- The name and detail of a window control: the word with its first argument, and its `USE` and
`AT` attributes. -/
def controlDisplay (tokens : Tokens) (index : Nat) : String × String :=
  match tokens[index]? with
  | none => ("", "")
  | some token =>
    let stop := tokens.logicalLineEnd index
    let first := (tokens.matchingParen (index + 1) stop).bind fun close =>
      (tokens.slice (index + 2) close).splitTopLevelCommas.head?.map Tokens.render
    let name :=
      match first with
      | some text => if text.isEmpty then token.value else token.value ++ "(" ++ text ++ ")"
      | none => token.value
    let shown (word : String) : List String :=
      (tokens.findAttribute (index + 1) stop word).elim [] fun text => [word ++ "(" ++ text ++ ")"]
    (name, String.intercalate " " (shown "USE" ++ shown "AT"))

/-- `PROJECT` with the fields in its parentheses. -/
def projectDisplay (tokens : Tokens) (index : Nat) : String :=
  match parenText? tokens (index + 1) (tokens.logicalLineEnd index) with
  | some fields => "PROJECT(" ++ fields ++ ")"
  | none => "PROJECT"

/-- The name of a key or index, with its label, fields and options, and its fields alone. -/
def keyDisplay (tokens : Tokens) (index : Nat) (label : Option String) : String × String :=
  match tokens[index]? with
  | none => ("", "")
  | some token =>
    let keyword := Text.foldUpper token.value
    let stop := tokens.logicalLineEnd index
    let head := label.elim keyword fun label => keyword ++ "(" ++ label ++ ")"
    let close := tokens.matchingParen (index + 1) stop
    let fields := close.elim "" fun close => (tokens.slice (index + 2) close).render
    let listed := if close.isSome then ",(" ++ fields ++ ")" else ""
    let optionsStart := close.elim (index + 1) (· + 1)
    let options := (tokens.slice (min optionsStart stop) stop).splitTopLevelCommas.map Tokens.render
    let written := (options.filter (!·.isEmpty)).map ("," ++ ·)
    (head ++ listed ++ String.join written, fields)

/-- The parameters of a procedure as written, `()` when it has none. -/
def paramsDisplay (tokens : Tokens) (index : Nat) : String :=
  match tokens.matchingParen (index + 1) (tokens.logicalLineEnd index) with
  | some close => (tokens.slice (index + 1) (close + 1)).render
  | none => "()"

/-- The text from a token to the end of its logical line. -/
def tailDisplay (tokens : Tokens) (index : Nat) : String :=
  (tokens.logicalLine index).render

/-- The label at the head of a declaration, and the index of its first token. -/
structure LineLabel where
  text : String
  index : Nat
deriving Repr, DecidableEq

/-- The label right before a token, at the start of its line. A label split in two at the colon is
put together. -/
def lineLabel? (tokens : Tokens) (index : Nat) : Option LineLabel := do
  let token ← tokens[index]?
  let first ← tokens.firstOnLine? token.line
  let head ← tokens[first]?
  if index = first + 1 then
    if head.kind == .label || head.kind == .structurePrefix then some ⟨head.value, first⟩ else none
  else if index = first + 2 then
    let second ← tokens[first + 1]?
    if head.kind == .label && second.kind == .structurePrefix then
      some ⟨head.value ++ second.value, first⟩
    else none
  else none

/-- The token starts its line, or stands right after the label that does. -/
def isLineHead (tokens : Tokens) (index : Nat) : Bool :=
  match tokens[index]? with
  | none => false
  | some token =>
    tokens.firstOnLine? token.line == some index || (lineLabel? tokens index).isSome

/-! ### Spans -/

/-- The span of a token. -/
def tokenRange (token : Token) : Range :=
  ⟨⟨token.line, token.start⟩, ⟨token.line, token.stop⟩⟩

/-- The start of a token's line: the start of the first token on it. -/
def lineStart (tokens : Tokens) (token : Token) : Position :=
  let first := (tokens.firstOnLine? token.line).bind (tokens[·]?)
  ⟨token.line, first.elim token.start Token.start⟩

/-- From the start of the token's line to the end of its closing line, or of its own line. -/
def blockRange (tokens : Tokens) (token : Token) (finishesAt : Option Nat) : Range :=
  let last := (finishesAt.filter (token.line ≤ ·)).getD token.line
  ⟨lineStart tokens token, ⟨last, (tokens.lineStopColumn? last).getD 0⟩⟩

/-- From the start of the token's line to the end of its logical line. -/
def statementRange (tokens : Tokens) (index : Nat) (token : Token) : Range :=
  let last := tokens[tokens.logicalLineEnd index - 1]?.getD token
  ⟨lineStart tokens token, ⟨last.line, last.stop⟩⟩

/-- The span of the label in front of a token, or of the token itself. -/
def selectionRange (tokens : Tokens) (index : Nat) (token : Token) : Range :=
  match lineLabel? tokens index with
  | none => tokenRange token
  | some label =>
    let first := tokens[label.index]?.getD token
    let last := tokens[index - 1]?.getD token
    ⟨⟨first.line, first.start⟩, ⟨last.line, last.stop⟩⟩

/-- The label of a declaration: the one the lexer found, or the one at the head of its line. -/
def labelOf (tokens : Tokens) (index : Nat) (token : Token) : Option String :=
  token.label.or ((lineLabel? tokens index).map LineLabel.text)

end Clarion.Outline
