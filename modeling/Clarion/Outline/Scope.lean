import Clarion.Outline.Arena
import Clarion.Token.Basic

/-! The stack of open scopes. A scope closes when the scan reaches a line past its closing line,
when a global procedure or another method implementation starts, or at its own end. -/
namespace Clarion.Outline

/-- How a scope takes part in closing. -/
inductive ScopeKind where
  | globalProcedure | methodImplementation | ordinaryStructure | specialRoutine
deriving Repr, DecidableEq

/-- The written name of a scope's kind. -/
def ScopeKind.name : ScopeKind → String
  | .globalProcedure => "GlobalProcedure"
  | .methodImplementation => "MethodImplementation"
  | .ordinaryStructure => "OrdinaryStructure"
  | .specialRoutine => "SpecialRoutine"

/-- Every kind of scope with its written name. -/
def ScopeKind.names : List (String × ScopeKind) :=
  [.globalProcedure, .methodImplementation, .ordinaryStructure, .specialRoutine].map
    fun kind => (kind.name, kind)

/-- The kind of the scope that a node opens. A procedure is global when it is marked so, or when
its name has no period. -/
def Node.scopeKind (node : Node) : ScopeKind :=
  if node.info.traits.isMethodImplementation then .methodImplementation
  else if node.info.traits.isSpecialRoutine then .specialRoutine
  else if node.info.kind == .procedure &&
      (node.info.traits.isGlobalProcedure || !node.info.name.toList.contains '.') then
    .globalProcedure
  else .ordinaryStructure

/-- An open scope. -/
structure Scope where
  node : NodeId
  finishesAt : Option Nat
  kind : ScopeKind
deriving Repr, DecidableEq

/-- The open scopes, outermost first. -/
abbrev Scopes := List Scope

namespace Scopes

/-- The index of the innermost scope that satisfies the test. -/
def lastIndex? (scopes : Scopes) (holds : Scope → Bool) : Option Nat :=
  (scopes.reverse.findIdx? holds).map (scopes.length - 1 - ·)

/-- The scope is a global procedure. -/
def isGlobal (scope : Scope) : Bool :=
  scope.kind == .globalProcedure

/-- The scope's closing line lies before a line. -/
def isPast (line : Nat) (scope : Scope) : Bool :=
  scope.finishesAt.any (· < line)

/-- How many scopes stay open when the scan reaches a line.

A line that starts a global procedure closes the innermost global procedure and all above it.
Otherwise the outermost scope past its closing line closes with all above it; while the document
has method implementations, a global procedure and all below it are not looked at. -/
def keepCount (scopes : Scopes) (line : Nat) (startsGlobal hasMethods : Bool) : Nat :=
  let bound := if startsGlobal then (scopes.lastIndex? isGlobal).getD scopes.length
    else scopes.length
  let floor := if hasMethods then (lastIndex? (scopes.take bound) isGlobal).elim 0 (· + 1) else 0
  (((scopes.take bound).drop floor).findIdx? (isPast line)).elim bound (floor + ·)

/-- The line holds the start of a global procedure. -/
def startsGlobal (lineTokens : List Token) : Bool :=
  lineTokens.any fun token => token.kind == .procedure && token.role == some .globalProcedure

/-- The scopes that stay open and those that close when the scan reaches a line. -/
def closeAtLine (scopes : Scopes) (line : Nat) (lineTokens : List Token) (hasMethods : Bool) :
    Scopes × Scopes :=
  scopes.splitAt (scopes.keepCount line (startsGlobal lineTokens) hasMethods)

/-- Closes the outermost scope that satisfies the test, with all above it. -/
def splitFrom (scopes : Scopes) (holds : Scope → Bool) : Scopes × Scopes :=
  scopes.splitAt ((scopes.findIdx? holds).getD scopes.length)

/-- Closes every open method implementation, with all above it. -/
def splitMethods (scopes : Scopes) : Scopes × Scopes :=
  scopes.splitFrom (·.kind == .methodImplementation)

/-- Closes the innermost scope if it has no closing line and satisfies the test. -/
def popOpenEnded (scopes : Scopes) (closes : Scope → Bool) : Scopes × Option Scope :=
  match scopes.getLast? with
  | some top =>
    if top.finishesAt.isNone && closes top then (scopes.dropLast, some top) else (scopes, none)
  | none => (scopes, none)

/-- The innermost scope that satisfies the test. -/
def innermost? (scopes : Scopes) (holds : Scope → Bool) : Option Scope :=
  scopes.reverse.find? holds

/-- The node of the innermost scope. -/
def top? (scopes : Scopes) : Option NodeId :=
  scopes.getLast?.map Scope.node

end Scopes
end Clarion.Outline
