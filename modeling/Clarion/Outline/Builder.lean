import Clarion.Outline.Data
import Clarion.Outline.Procedures
import Clarion.Outline.Structures

/-! The outline of a document, built in one pass over its tokens from left to right. The pass never
fails: a declaration whose place is unclear goes to the best remaining one, and at last to the
root. -/
namespace Clarion.Outline

namespace State

/-- What a token does to the outline. -/
def dispatch (tokens : Tokens) (index : Nat) (token : Token) (state : State) : State :=
  match token.kind with
  | .structureWord => state.onStructure tokens index token
  | .windowElement => state.onControl tokens index token
  | .propertyFunction =>
    if token.reads "PROJECT" then state.onProject tokens index token else state
  | .keyword =>
    if token.reads "KEY" || token.reads "INDEX" then state.onKey tokens index token
    else if token.reads "ROUTINE" then state.onRoutine tokens index token
    else if token.readsOneOf Tokens.compoundWords then
      { state with openBlocks := token :: state.openBlocks }
    else if tokens.isLoopTerminator index then state.onLoopTerminator tokens index
    else state
  | .procedure => state.onProcedure tokens index token
  | .routine => state.onRoutine tokens index token
  | .executionMarker => state.onMarker token
  | .endStatement => state.onEnd token
  | .typeName | .annotatedType | .referenceVariable | .variableName | .argument =>
    state.onData tokens index token
  | _ => state

/-- The state after one more token: a new line closes scopes first, and a token that a look ahead
has dealt with does nothing. -/
def step (tokens : Tokens) (state : State) (index : Nat) : State :=
  match tokens[index]? with
  | none => state
  | some token =>
    let state :=
      if state.currentLine == some token.line then state else state.advanceLine tokens token.line
    if state.handled.contains index then state else state.dispatch tokens index token

/-- The state after the first `count` tokens. -/
def after (tokens : Tokens) (count : Nat) : State :=
  (List.range count).foldl (step tokens) {}

/-- The state when the document ends: every scope still open closes. -/
def finish (tokens : Tokens) (state : State) : State :=
  { state with scopes := [] }.close tokens state.scopes state.currentLine

end State

/-- The outline of a document. -/
def ofTokens (tokens : Tokens) : List Symbol :=
  ((State.after tokens tokens.length).finish tokens).arena.toSymbols

end Clarion.Outline
