import Clarion.Outline.Display
import Clarion.Outline.Finder
import Clarion.Outline.Scope

/-! The state of the pass that builds an outline: the nodes made so far, the open scopes, and what
the pass remembers between tokens. -/
namespace Clarion.Outline

/-- Where the pass stands among its open scopes. -/
structure Focus where
  /-- The innermost open node inside the current body that is no body itself. -/
  block : Option NodeId := none
  /-- The body in progress, as long as its code has not been reached. -/
  body : Option NodeId := none
  /-- A class, interface, map or module is open inside the current body. -/
  inDefinition : Bool := false
deriving Repr, DecidableEq

/-- What the pass knows after a number of tokens. -/
structure State where
  arena : Arena := {}
  scopes : Scopes := []
  focus : Focus := {}
  currentLine : Option Nat := none
  previousLine : Option Nat := none
  /-- Executable code is being read, so nothing is declared. -/
  pastCode : Bool := false
  lastMethod : Option NodeId := none
  /-- The method whose code has been reached. -/
  codeReached : Option NodeId := none
  hasMethods : Bool := false
  /-- Openers of executable blocks that wait for their end, innermost first. -/
  openBlocks : List Token := []
  /-- Definitions of classes and interfaces by capital label, the latest first. -/
  classes : List (String × NodeId) := []
  /-- Indices of tokens that a look ahead has dealt with. -/
  handled : List Nat := []
  /-- Records that a look ahead has made, by token index. -/
  prebuilt : List (Nat × NodeId) := []

/-- Reads the focus off the scopes from the innermost outward, up to the first body. -/
def Focus.scan (arena : Arena) (codeReached : Option NodeId) (focus : Focus) :
    List Scope → Focus
  | [] => focus
  | scope :: outer =>
    match arena.kind? scope.node with
    | none => scan arena codeReached focus outer
    | some kind =>
      if kind == .routine then scan arena codeReached focus outer
      else if kind.isCallable then
        if codeReached == some scope.node then focus else { focus with body := some scope.node }
      else
        scan arena codeReached
          { focus with
            block := focus.block.or (some scope.node)
            inDefinition := focus.inDefinition || kind.isDefinition } outer

/-- The focus that the open scopes determine. -/
def Focus.ofScopes (arena : Arena) (codeReached : Option NodeId) (scopes : Scopes) : Focus :=
  scan arena codeReached {} scopes.reverse

namespace State

/-- The state with its focus read off the scopes again. -/
def refocus (state : State) : State :=
  { state with focus := Focus.ofScopes state.arena state.codeReached state.scopes }

/-- The kind of the node of a scope satisfies the test. -/
def scopeKindIs (state : State) (holds : Kind → Bool) (scope : Scope) : Bool :=
  (state.arena.kind? scope.node).any holds

/-- Adds a node. -/
def add (state : State) (parent : Option NodeId) (info : Info) : State × NodeId :=
  let (arena, id) := state.arena.add parent info
  ({ state with arena }, id)

/-- Adds a node that nothing refers to later. -/
def addLeaf (state : State) (parent : Option NodeId) (info : Info) : State :=
  (state.add parent info).1

/-- The group of an owner, created on first use. -/
def ensureGroup (state : State) (owner : NodeId) (group : Group) : State × NodeId :=
  let (arena, id) := state.arena.ensureGroup owner group
  ({ state with arena }, id)

/-- The end of a line: past its last token, or column zero on a line without tokens. -/
def lineStop (tokens : Tokens) (line : Nat) : Position :=
  ⟨line, (tokens.lineStopColumn? line).getD 0⟩

/-- Widens closed scopes to the end of the line they closed on. A scope with a closing line spans
it already; a global procedure may have been held open past it. -/
def close (tokens : Tokens) (state : State) (closed : Scopes) (line : Option Nat) : State :=
  match line with
  | none => state
  | some line =>
    let place := lineStop tokens line
    { state with arena := closed.foldl (fun arena scope =>
        if scope.finishesAt.isNone || scope.kind == .globalProcedure then
          arena.extendTo scope.node place
        else arena) state.arena }

/-- Opens the scope of a node. -/
def openScope (state : State) (node : NodeId) (finishesAt : Option Nat) : State :=
  let kind := (state.arena.node? node).elim .ordinaryStructure Node.scopeKind
  let scope : Scope := ⟨node, finishesAt, kind⟩
  { state with scopes := state.scopes ++ [scope] }.refocus

/-- The state when the scan comes to another line. -/
def advanceLine (tokens : Tokens) (state : State) (line : Nat) : State :=
  let lineTokens := tokens.onLine line
  let (kept, closed) := state.scopes.closeAtLine line lineTokens state.hasMethods
  let state := { state with scopes := kept }.close tokens closed state.currentLine
  let state := if Scopes.startsGlobal lineTokens then { state with lastMethod := none } else state
  { state with previousLine := state.currentLine, currentLine := some line }.refocus

/-- Forgets what belonged to the body before. -/
def startBody (state : State) : State :=
  { state with pastCode := false, openBlocks := [], codeReached := none }

/-- Where data declared in a node goes: into the properties of a class, else right below. -/
def routeInto (state : State) (node : NodeId) : State × NodeId :=
  if state.arena.kind? node == some .classDecl then state.ensureGroup node .properties
  else (state, node)

/-- Where data declared in a node goes, when there is a node. -/
def routeOption (state : State) : Option NodeId → State × Option NodeId
  | none => (state, none)
  | some node =>
    let (state, target) := state.routeInto node
    (state, some target)

/-- Where a structure goes: into the innermost scope. -/
def scopeTarget (state : State) : State × Option NodeId :=
  state.routeOption state.scopes.top?

/-- Where controls and projected fields go. -/
def elementTarget (state : State) : State × Option NodeId :=
  match state.focus.block.or state.focus.body with
  | some node => state.routeOption (some node)
  | none => state.scopeTarget

/-- Where keys go. -/
def keyTarget (state : State) : State × Option NodeId :=
  match state.focus.block with
  | some node => state.routeOption (some node)
  | none => state.scopeTarget

end State
end Clarion.Outline
