import Clarion.Outline.State

/-! Data declarations: a label at the head of a line followed by a type. -/
namespace Clarion.Outline

/-- The text without the colons at its end. -/
def dropEndColons (text : String) : String :=
  String.ofList (Text.dropEndWhile (· == ':') text.toList)

/-- Where a declaration goes, what kind of symbol it becomes, and the structure it is part of. -/
structure Home where
  parent : Option NodeId
  kind : Kind
  owner : Option NodeId := none
deriving Repr, DecidableEq

/-- The label of a data declaration: its text, the index it starts at, and its last token. -/
structure DataLabel where
  text : String
  index : Nat
  last : Token
deriving Repr, DecidableEq

/-- The label of the declaration whose type stands at `index`, when the label starts the line. A
label split in two at the colon is put together. -/
def dataLabel? (tokens : Tokens) (index : Nat) (token : Token) : Option DataLabel := do
  if index = 0 then none
  else
    let last ← tokens[index - 1]?
    if last.line != token.line then none
    else
      let plain : DataLabel := ⟨last.value, index - 1, last⟩
      let label ←
        match last.kind with
        | .label | .variableName => some plain
        | .structurePrefix =>
          match if index = 1 then none else tokens[index - 2]? with
          | some head =>
            if last.value.toList.head? == some ':' && head.line == token.line &&
                head.kind == .label then
              some ⟨head.value ++ last.value, index - 2, last⟩
            else some plain
          | none => some plain
        | _ => none
      if tokens.firstOnLine? token.line == some label.index then some label else none

namespace State

/-- The prefix declared for the fields of a structure, by itself or by what encloses it. -/
def inheritedPrefix? (state : State) (owner : NodeId) : Option String :=
  let own := (state.arena.node? owner).bind (·.info.traits.fieldPrefix)
  own.or ((state.arena.ancestorWhere owner (·.info.traits.fieldPrefix.isSome)).bind fun above =>
    (state.arena.node? above).bind (·.info.traits.fieldPrefix))

/-- The capital spellings `PREFIX:NAME` and `LABEL.NAME` of a field. -/
def possibleReferences (state : State) (owner : NodeId) (name : String)
    (tokenPrefix : Option String) : List String :=
  let pre := (tokenPrefix.map dropEndColons).or (state.inheritedPrefix? owner)
  let qualified :=
    if name.toList.contains ':' then []
    else pre.elim [] fun pre => [Text.uppercase (pre ++ ":" ++ name)]
  let label := (state.arena.node? owner).bind (·.info.traits.label)
  qualified ++ label.elim [] fun label => [Text.uppercase (label ++ "." ++ name)]

/-- The home of a data declaration: the innermost open scope that is no special routine. With
nothing open it is the body in progress, the last method, the open structure, or the last global
procedure. -/
def dataHome (state : State) : State × Home :=
  match state.scopes.innermost? (·.kind != .specialRoutine) with
  | some scope =>
    match state.arena.kind? scope.node with
    | some .classDecl =>
      let (state, properties) := state.ensureGroup scope.node .properties
      (state, ⟨some properties, .property, some scope.node⟩)
    | some .procedure | some .method | some .routine =>
      (state, ⟨some scope.node, .variableDecl, none⟩)
    | _ => (state, ⟨some scope.node, .field, some scope.node⟩)
  | none =>
    let fallback := ((state.focus.body.or state.lastMethod).or state.focus.block).or
      state.arena.lastGlobalProcedure?
    (state, ⟨fallback, .variableDecl, none⟩)

/-- The symbol of a data declaration. -/
def dataInfo (tokens : Tokens) (index : Nat) (token : Token) (label : DataLabel) (home : Home)
    (references : List String) : Info :=
  let declaration := tokens.logicalLine index
  let dataType := (declaration.splitTopLevelCommas.head?.map Tokens.render).getD ""
  let first := tokens[label.index]?.getD label.last
  { name := label.text ++ "  " ++ dataType
    detail := declaration.render
    kind := home.kind
    range := statementRange tokens index token
    selection := ⟨⟨first.line, first.start⟩, ⟨label.last.line, label.last.stop⟩⟩
    traits := {
      dataType := some dataType
      dataName := some label.text
      isPartOfStructure := home.owner.isSome && home.kind == .field
      references } }

/-- A token that may be the type of a data declaration. -/
def onData (tokens : Tokens) (index : Nat) (token : Token) (state : State) : State :=
  if state.pastCode then state
  else
    match dataLabel? tokens index token with
    | none => state
    | some label =>
      let (state, home) := state.dataHome
      let references := home.owner.elim [] fun owner =>
        state.possibleReferences owner label.text token.fieldPrefix
      state.addLeaf home.parent (dataInfo tokens index token label home references)

end State
end Clarion.Outline
