import Clarion.Outline.Symbol
import Clarion.Text.Case

/-! An outline under construction. Nodes stand in a row in the order of their creation and know each
other by index; a node is created below a node that exists already. Groups of a class or a map
(its properties, methods, functions) are recorded by their owner. -/
namespace Clarion.Outline

/-- The index of a node. -/
abbrev NodeId := Nat

/-- A group that collects children of one sort under their owner. -/
inductive Group where
  | properties | methods | functions
deriving Repr, DecidableEq

namespace Group

/-- The displayed name of a group. -/
def label : Group → String
  | .properties => "Properties"
  | .methods => "Methods"
  | .functions => "Functions"

/-- The fixed place of a group among its siblings. -/
def sortText : Group → String
  | .properties => "!0"
  | .methods => "!1"
  | .functions => "!2"

/-- Methods stay in the order of the source, the members of the other groups go by name. -/
def sortsChildren : Group → Bool
  | .methods => false
  | _ => true

end Group

/-- A node: a symbol, the node above it, and the nodes below it in order of creation. -/
structure Node where
  info : Info
  parent : Option NodeId := none
  children : List NodeId := []
  group : Option Group := none
deriving Repr, Inhabited

/-- The nodes created so far. -/
structure Arena where
  nodes : Array Node := #[]
  roots : List NodeId := []
  groups : List ((NodeId × Group) × NodeId) := []
deriving Repr, Inhabited

namespace Arena

/-- The node at an index. -/
def node? (arena : Arena) (id : NodeId) : Option Node :=
  arena.nodes[id]?

/-- The node at an index satisfies the test. -/
def test (arena : Arena) (id : NodeId) (holds : Node → Bool) : Bool :=
  (arena.node? id).any holds

/-- The kind of a node. -/
def kind? (arena : Arena) (id : NodeId) : Option Kind :=
  (arena.node? id).map (·.info.kind)

/-- The nodes below a node. -/
def childrenOf (arena : Arena) (id : NodeId) : List NodeId :=
  (arena.node? id).elim [] Node.children

/-- Creates a node below `parent`, or at the root; answers the arena and the new index. -/
def push (arena : Arena) (parent : Option NodeId) (info : Info) (group : Option Group) :
    Arena × NodeId :=
  let id := arena.nodes.size
  let nodes := arena.nodes.push { info, parent, group }
  match parent with
  | some above =>
    ({ arena with
        nodes := nodes.modify above fun node => { node with children := node.children ++ [id] } },
      id)
  | none => ({ arena with nodes := nodes, roots := arena.roots ++ [id] }, id)

/-- Creates an ordinary node below `parent`, or at the root. -/
def add (arena : Arena) (parent : Option NodeId) (info : Info) : Arena × NodeId :=
  arena.push parent info none

/-- The group of an owner, when it exists. -/
def group? (arena : Arena) (owner : NodeId) (group : Group) : Option NodeId :=
  arena.groups.lookup (owner, group)

/-- The group of an owner, created on first use with the span of the owner. -/
def ensureGroup (arena : Arena) (owner : NodeId) (group : Group) : Arena × NodeId :=
  match arena.group? owner group with
  | some id => (arena, id)
  | none =>
    match arena.node? owner with
    | none => (arena, owner)
    | some above =>
      let (arena, id) := arena.push (some owner) {
        name := group.label
        detail := ""
        kind := .container
        range := above.info.range
        selection := above.info.selection
        sortText := some group.sortText } (some group)
      ({ arena with groups := ((owner, group), id) :: arena.groups }, id)

/-- Moves the end of a node's span forward to a place; never backward. -/
def extendTo (arena : Arena) (id : NodeId) (place : Position) : Arena :=
  { arena with nodes := arena.nodes.modify id fun node =>
      if place.isAfter node.info.range.stop then
        { node with info := { node.info with range := ⟨node.info.range.start, place⟩ } }
      else node }

/-- Gives a node another name. -/
def rename (arena : Arena) (id : NodeId) (name : String) : Arena :=
  { arena with nodes := arena.nodes.modify id fun node =>
      { node with info := { node.info with name } } }

/-- The nearest node that satisfies the test, going up from `current`; `fuel` bounds the steps. -/
def climb (arena : Arena) (holds : Node → Bool) : Nat → Option NodeId → Option NodeId
  | 0, _ => none
  | _, none => none
  | fuel + 1, some current =>
    match arena.node? current with
    | none => none
    | some node => if holds node then some current else climb arena holds fuel node.parent

/-- The nearest node strictly above `id` that satisfies the test. -/
def ancestorWhere (arena : Arena) (id : NodeId) (holds : Node → Bool) : Option NodeId :=
  arena.climb holds arena.nodes.size ((arena.node? id).bind Node.parent)

/-- Some node in the tree below `id`, itself included, is a method implementation. -/
def treeHasMethod (arena : Arena) : Nat → NodeId → Bool
  | 0, _ => false
  | fuel + 1, id =>
    match arena.node? id with
    | none => false
    | some node =>
      node.info.traits.isMethodImplementation || node.children.any (treeHasMethod arena fuel)

/-- Some node of the outline is a method implementation. -/
def hasMethodImplementations (arena : Arena) : Bool :=
  arena.roots.any (arena.treeHasMethod arena.nodes.size)

/-! ### The finished outline -/

/-- A number of at least four digits. -/
def fourDigits (n : Nat) : String :=
  let digits := toString n
  String.ofList (List.replicate (4 - digits.length) '0') ++ digits

/-- What the members of a sorted group go by: the identifier in small letters. -/
def sortKey (symbol : Symbol) : String :=
  Text.lowercase (bareName symbol.info.name)

/-- Symbols ordered by their keys, equal ones as they were, and numbered. -/
def sortedByName (symbols : List Symbol) : List Symbol :=
  let keyed := symbols.map fun symbol => (sortKey symbol, symbol)
  let sorted := (keyed.mergeSort fun left right => left.1 ≤ right.1).map Prod.snd
  sorted.mapIdx fun index symbol =>
    { symbol with info := { symbol.info with sortText := some (fourDigits index) } }

/-- The smallest span that covers both. -/
def cover (range inner : Range) : Range :=
  ⟨if range.start.isAfter inner.start then inner.start else range.start,
    if inner.stop.isAfter range.stop then inner.stop else range.stop⟩

/-- The symbol of a node with all below it; `fuel` bounds the depth. -/
def symbolAt (arena : Arena) : Nat → NodeId → List Symbol
  | 0, _ => []
  | fuel + 1, id =>
    match arena.node? id with
    | none => []
    | some node =>
      let built := node.children.flatMap (symbolAt arena fuel)
      let children :=
        if node.group.any Group.sortsChildren then sortedByName built else built
      let range := children.foldl (fun range child => cover range child.info.range) node.info.range
      [⟨{ node.info with range }, children⟩]

/-- The finished outline: groups of named members sorted, and every span wide enough for what
stands below it. -/
def toSymbols (arena : Arena) : List Symbol :=
  arena.roots.flatMap (arena.symbolAt arena.nodes.size)

end Arena
end Clarion.Outline
