import Clarion.Outline.State

/-! Structures, window controls, projected fields and keys. A file and a view are looked through to
their end as soon as they open, and the tokens dealt with there are marked as handled. -/
namespace Clarion.Outline

/-- The symbol of a key or index. -/
def keyInfo (tokens : Tokens) (index : Nat) (token : Token) : Info :=
  let label := (lineLabel? tokens index).map LineLabel.text
  let (name, fields) := keyDisplay tokens index label
  { name, detail := fields, kind := .key
    range := statementRange tokens index token
    selection := selectionRange tokens index token
    traits := { label } }

/-- The symbol of a projected field list. -/
def projectInfo (tokens : Tokens) (index : Nat) (token : Token) : Info :=
  { name := projectDisplay tokens index, detail := "", kind := .field
    range := statementRange tokens index token
    selection := tokenRange token }

/-- The symbol of a window control. -/
def controlInfo (tokens : Tokens) (index : Nat) (token : Token) : Info :=
  let (name, detail) := controlDisplay tokens index
  { name, detail, kind := .control
    range := statementRange tokens index token
    selection := tokenRange token }

/-- The symbol of a record of a file. -/
def recordInfo (tokens : Tokens) (index : Nat) (token : Token) : Info :=
  let header := Header.ofTokens tokens index
  let label := labelOf tokens index token
  { name := label.getD header.unlabeledName, detail := header.signature, kind := .structureDecl
    range := blockRange tokens token token.finishesAt
    selection := selectionRange tokens index token
    traits := { finishesAt := token.finishesAt, fieldPrefix := header.pre, label } }

/-- The symbol of a memo or blob of a file. -/
def memoInfo (tokens : Tokens) (index : Nat) (token : Token) : Info :=
  let label := labelOf tokens index token
  let text := tailDisplay tokens index
  { name := label.elim text (· ++ "  " ++ text), detail := text, kind := .field
    range := statementRange tokens index token
    selection := selectionRange tokens index token
    traits := { dataName := label, dataType := some text, isPartOfStructure := true } }

/-- The symbol of a join of a view. -/
def joinInfo (tokens : Tokens) (index : Nat) (token : Token) : Info :=
  let header := Header.ofTokens tokens index
  { name := header.unlabeledName, detail := header.signature, kind := .structureDecl
    range := blockRange tokens token token.finishesAt
    selection := tokenRange token
    traits := { finishesAt := token.finishesAt } }

/-- The symbol of a structure. -/
def structureInfo (tokens : Tokens) (index : Nat) (token : Token) : Info :=
  let header := Header.ofTokens tokens index
  let label := labelOf tokens index token
  let kind := Kind.ofStructureWord token.value
  { name := label.getD header.unlabeledName, detail := header.signature, kind
    range := blockRange tokens token token.finishesAt
    selection := selectionRange tokens index token
    traits := {
      finishesAt := token.finishesAt
      fieldPrefix := header.pre
      label
      isInterface := kind == .interfaceDecl } }

namespace State

/-- Marks a token as dealt with. -/
def markHandled (state : State) (index : Nat) : State :=
  { state with handled := index :: state.handled }

/-- One token inside a file: records, keys, memos and blobs become its children. -/
def fileStep (tokens : Tokens) (file : NodeId) (state : State) (index : Nat) : State :=
  match tokens[index]? with
  | none => state
  | some token =>
    if token.kind == .structureWord && token.reads "RECORD" then
      let (state, record) := state.add (some file) (recordInfo tokens index token)
      { state with prebuilt := (index, record) :: state.prebuilt }
    else if (token.reads "KEY" || token.reads "INDEX") && isLineHead tokens index then
      (state.addLeaf (some file) (keyInfo tokens index token)).markHandled index
    else if (token.reads "MEMO" || token.reads "BLOB") && isLineHead tokens index then
      (state.addLeaf (some file) (memoInfo tokens index token)).markHandled index
    else state

/-- The indices inside the block opened at `index`. -/
def blockIndices (tokens : Tokens) (index : Nat) : List Nat :=
  List.range' (index + 1) (tokens.blockEnd index - (index + 1))

/-- Looks through a file. -/
def lookThroughFile (tokens : Tokens) (index : Nat) (file : NodeId) (state : State) : State :=
  (blockIndices tokens index).foldl (fileStep tokens file) state

/-- One token inside a view, where `joins` are the open joins, innermost first. -/
def viewStep (tokens : Tokens) (view : NodeId) (step : State × List NodeId) (index : Nat) :
    State × List NodeId :=
  let (state, joins) := step
  match tokens[index]? with
  | none => step
  | some token =>
    let parent := joins.head?.getD view
    if token.kind == .structureWord && token.reads "JOIN" then
      let (state, join) := state.add (some parent) (joinInfo tokens index token)
      (state.markHandled index, join :: joins)
    else if token.reads "PROJECT" then
      ((state.addLeaf (some parent) (projectInfo tokens index token)).markHandled index, joins)
    else if token.kind == .endStatement && !joins.isEmpty then
      (state.markHandled index, joins.tail)
    else step

/-- Looks through a view: projected fields go under the innermost open join. -/
def lookThroughView (tokens : Tokens) (index : Nat) (view : NodeId) (state : State) : State :=
  ((blockIndices tokens index).foldl (viewStep tokens view) (state, [])).1

/-- Records a class or interface under its label. -/
def recordClass (state : State) (label : Option String) (node : NodeId) : State :=
  match label with
  | none => state
  | some label => { state with classes := (Text.foldUpper label, node) :: state.classes }

/-- What a fresh structure brings with it: groups, a place in the class table, or a look ahead. -/
def furnish (tokens : Tokens) (index : Nat) (token : Token) (node : NodeId) (state : State) :
    State :=
  let label := labelOf tokens index token
  if token.reads "CLASS" then
    let (state, _) := state.ensureGroup node .properties
    let (state, _) := state.ensureGroup node .methods
    state.recordClass label node
  else if token.reads "INTERFACE" then state.recordClass label node
  else if token.reads "MAP" || token.reads "MODULE" then (state.ensureGroup node .functions).1
  else if token.reads "FILE" then state.lookThroughFile tokens index node
  else if token.reads "VIEW" then state.lookThroughView tokens index node
  else state

/-- A structure token that declares something. -/
def openStructure (tokens : Tokens) (index : Nat) (token : Token) (state : State) : State :=
  let (state, parent) := state.scopeTarget
  let (state, node) := state.add parent (structureInfo tokens index token)
  (state.furnish tokens index token node).openScope node token.finishesAt

/-- A structure token. -/
def onStructure (tokens : Tokens) (index : Nat) (token : Token) (state : State) : State :=
  if token.readsOneOf Tokens.silentWords then
    { state with openBlocks := token :: state.openBlocks }
  else if tokens.isModuleAttribute index then state
  else
    match state.prebuilt.lookup index with
    | some node =>
      { state with prebuilt := state.prebuilt.filter (·.1 != index) }.openScope
        node token.finishesAt
    | none => state.openStructure tokens index token

/-- A window control. -/
def onControl (tokens : Tokens) (index : Nat) (token : Token) (state : State) : State :=
  let (state, parent) := state.elementTarget
  state.addLeaf parent (controlInfo tokens index token)

/-- A projected field list outside any view. -/
def onProject (tokens : Tokens) (index : Nat) (token : Token) (state : State) : State :=
  let (state, parent) := state.elementTarget
  state.addLeaf parent (projectInfo tokens index token)

/-- A key or index. Away from the head of its line it is an attribute of a control. -/
def onKey (tokens : Tokens) (index : Nat) (token : Token) (state : State) : State :=
  if isLineHead tokens index then
    let (state, parent) := state.keyTarget
    state.addLeaf parent (keyInfo tokens index token)
  else state

end State
end Clarion.Outline
