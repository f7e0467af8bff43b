import Clarion.Outline.State

/-! Procedures, methods, prototypes, routines, section markers and ends of blocks. -/
namespace Clarion.Outline

/-- The name a procedure token introduces. -/
def procedureName (tokens : Tokens) (index : Nat) (token : Token) : String :=
  (labelOf tokens index token).getD token.value

/-- The symbol of a procedure with a body. -/
def procedureInfo (tokens : Tokens) (index : Nat) (token : Token) (name : String)
    (isGlobal : Bool) : Info :=
  { name := name ++ " " ++ paramsDisplay tokens index
    detail := tailDisplay tokens index
    kind := .procedure
    range := blockRange tokens token token.finishesAt
    selection := selectionRange tokens index token
    traits := {
      isGlobalProcedure := isGlobal
      finishesAt := token.finishesAt
      label := some name } }

/-- The symbol of a method with a body. -/
def methodInfo (tokens : Tokens) (index : Nat) (token : Token)
    (className methodName detail : String) : Info :=
  { name := methodName ++ " " ++ paramsDisplay tokens index
    detail
    kind := .method
    range := blockRange tokens token token.finishesAt
    selection := selectionRange tokens index token
    traits := {
      isMethodImplementation := true
      finishesAt := token.finishesAt
      label := some (className ++ "." ++ methodName) } }

/-- The symbol of a class that has implementations and no declaration. -/
def undeclaredClassInfo (tokens : Tokens) (index : Nat) (token : Token) (className : String) :
    Info :=
  { name := className ++ Arena.implementationSuffix
    detail := ""
    kind := .classDecl
    range := blockRange tokens token none
    selection := selectionRange tokens index token
    traits := { label := some className } }

/-- The symbol of a prototype. -/
def prototypeInfo (tokens : Tokens) (index : Nat) (token : Token) (name : String) (kind : Kind)
    (isMethod isMap : Bool) : Info :=
  { name
    detail := tailDisplay tokens index
    kind
    range := statementRange tokens index token
    selection := selectionRange tokens index token
    traits := { isMethodDeclaration := isMethod, isMapProcedure := isMap, label := some name } }

/-- The symbol of a routine. -/
def routineInfo (tokens : Tokens) (index : Nat) (token : Token) (name : String) : Info :=
  { name
    detail := "ROUTINE"
    kind := .routine
    range := blockRange tokens token token.finishesAt
    selection := selectionRange tokens index token
    traits := {
      isSpecialRoutine := Text.contains name "::"
      finishesAt := token.finishesAt
      label := some name } }

/-- The symbol of the mark at the start of executable code. -/
def codeInfo (token : Token) : Info :=
  { name := "CODE", detail := "", kind := .marker
    range := tokenRange token
    selection := tokenRange token }

namespace State

/-- A procedure with a body. A global one closes every scope and stands at the root. -/
def openProcedure (tokens : Tokens) (index : Nat) (token : Token) (name : String)
    (isExplicit : Bool) (state : State) : State :=
  let isGlobal := isExplicit || state.focus.block.isNone
  let parent := if isGlobal then none else state.focus.block
  let state :=
    if isGlobal then
      let closed := state.scopes
      { { state with scopes := [] }.close tokens closed state.previousLine with
        lastMethod := none }.refocus
    else state
  let (state, node) := state.add parent (procedureInfo tokens index token name isGlobal)
  state.startBody.openScope node token.finishesAt

/-- The class that declares a method, when there is one. -/
def declaringClass? (state : State) (className methodName : String) : Option NodeId :=
  ((state.classes.lookup (Text.foldUpper className)).or (state.arena.findClass className)).filter
    fun owner => (state.arena.findMethodDeclaration owner methodName).isSome

/-- The node that a method implementation goes under, with the detail it shows. Without a
declaration that is the root of the undeclared class, made on first use. -/
def methodOwner (tokens : Tokens) (index : Nat) (token : Token) (className methodName : String)
    (state : State) : State × NodeId × String :=
  match state.declaringClass? className methodName with
  | some owner => (state, owner, "Implementation")
  | none =>
    let detail := className ++ "." ++ methodName
    match state.arena.findImplementationRoot className with
    | some root => (state, root, detail)
    | none =>
      let (state, root) := state.add none (undeclaredClassInfo tokens index token className)
      (state, root, detail)

/-- A method with a body. Implementations never nest. -/
def openMethod (tokens : Tokens) (index : Nat) (token : Token) (className methodName : String)
    (state : State) : State :=
  let (kept, closed) := state.scopes.splitMethods
  let state := ({ state with scopes := kept }.close tokens closed state.previousLine).refocus
  let (state, owner, detail) := state.methodOwner tokens index token className methodName
  let (state, methods) := state.ensureGroup owner .methods
  let (state, node) :=
    state.add (some methods) (methodInfo tokens index token className methodName detail)
  { state with hasMethods := true, lastMethod := some node }.startBody.openScope
    node token.finishesAt

/-- A prototype goes into the innermost open class, interface, map or module. -/
def declarePrototype (tokens : Tokens) (index : Nat) (token : Token) (name : String)
    (state : State) : State :=
  let info := prototypeInfo tokens index token name
  let owner := (state.scopes.innermost? (state.scopeKindIs Kind.isDefinition)).map Scope.node
  match owner.bind fun node => (state.arena.kind? node).map (node, ·) with
  | some (owner, .classDecl) =>
    let (state, methods) := state.ensureGroup owner .methods
    state.addLeaf (some methods) (info .method true false)
  | some (owner, .interfaceDecl) => state.addLeaf (some owner) (info .method true false)
  | some (owner, _) =>
    let (state, functions) := state.ensureGroup owner .functions
    state.addLeaf (some functions) (info .procedure false true)
  | none =>
    let isMap := token.role == some .mapProcedure
    let isMethod := token.role == some .methodDeclaration || token.role == some .interfaceMethod
    state.addLeaf state.focus.block (info .procedure isMethod isMap)

/-- The procedure token has a body. Where the lexer does not say, it has one outside of classes,
interfaces, maps and modules. -/
def hasBody (state : State) (token : Token) : Bool :=
  match token.role with
  | some .globalProcedure | some .methodImplementation => true
  | some role => !role.isDeclaration && !state.focus.inDefinition
  | none => !state.focus.inDefinition

/-- A procedure token: a name with a period is a method of a class. -/
def onProcedure (tokens : Tokens) (index : Nat) (token : Token) (state : State) : State :=
  let name := procedureName tokens index token
  if state.hasBody token then
    let isExplicit := token.role == some .globalProcedure
    match Text.cut '.' name with
    | some (className, methodName) =>
      if isExplicit then state.openProcedure tokens index token name isExplicit
      else state.openMethod tokens index token className methodName
    | none => state.openProcedure tokens index token name isExplicit
  else state.declarePrototype tokens index token name

/-- The name of a routine: its label, the label token right before it, or the word itself. -/
def routineName (tokens : Tokens) (index : Nat) (token : Token) : String :=
  let before :=
    match index with
    | 0 => none
    | previous + 1 => (tokens[previous]?.filter (·.kind == .label)).map Token.value
  ((labelOf tokens index token).or before).getD token.value

/-- The method implementation that the procedure token before a routine introduced. -/
def methodBefore? (tokens : Tokens) (index : Nat) (state : State) : Option NodeId := do
  let procedure ← (tokens.take index).reverse.find? fun token =>
    token.kind == .procedure && !token.isDeclaration
  let label ← procedure.label
  let (className, methodName) ← Text.cut '.' label
  state.arena.findMethodImplementation className methodName

/-- A routine: it ends the routine before it, and belongs to the body it stands in. -/
def onRoutine (tokens : Tokens) (index : Nat) (token : Token) (state : State) : State :=
  let name := routineName tokens index token
  let (kept, closed) := state.scopes.splitFrom (state.scopeKindIs (· == .routine))
  let state := ({ state with scopes := kept }.close tokens closed state.previousLine).refocus
  let body := (state.scopes.innermost? (state.scopeKindIs Kind.isCallable)).map Scope.node
  let parent := (body.or (state.methodBefore? tokens index)).or state.arena.lastGlobalProcedure?
  let info := routineInfo tokens index token name
  let (state, node) := state.add parent info
  let state := { state with pastCode := true }
  if info.traits.isSpecialRoutine || token.finishesAt.isSome then
    state.openScope node token.finishesAt
  else state

/-- A section marker. Code of a method ends the search for its local data. -/
def onMarker (token : Token) (state : State) : State :=
  if token.reads "DATA" then { state with pastCode := false }
  else if token.reads "CODE" then
    let state := { state with pastCode := true }
    let owner := state.scopes.innermost?
      (state.scopeKindIs fun kind => kind.isCallable || kind == .routine)
    match owner with
    | none => state
    | some scope =>
      let state := state.addLeaf (some scope.node) (codeInfo token)
      if state.arena.kind? scope.node == some .method then
        { state with codeReached := some scope.node }.refocus
      else state
  else state

/-- `UNTIL` or `WHILE` closes the innermost block if that is a loop. -/
def onLoopTerminator (tokens : Tokens) (index : Nat) (state : State) : State :=
  match state.openBlocks with
  | [] => state
  | opener :: outer =>
    if tokens.closesBlock index opener then { state with openBlocks := outer } else state

/-- An end closes the innermost executable block, or else the innermost structure that has no
closing line. Bodies have no end of their own. -/
def onEnd (token : Token) (state : State) : State :=
  match state.openBlocks with
  | _ :: outer => { state with openBlocks := outer }
  | [] =>
    let (kept, popped) := state.scopes.popOpenEnded
      (state.scopeKindIs fun kind => !kind.isCallable && kind != .routine)
    match popped with
    | none => state
    | some scope =>
      { state with
        scopes := kept
        arena := state.arena.extendTo scope.node ⟨token.line, token.stop⟩ }.refocus

end State
end Clarion.Outline
