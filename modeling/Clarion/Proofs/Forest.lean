import Clarion.Proofs.Ancestry
import Clarion.Proofs.Numbered
import Clarion.Proofs.Ranges
import Mathlib.Data.List.Nodup
import Mathlib.Data.List.Perm.Basic

/-! From an arena to the finished outline. However an arena came about, its outline is a forest in
which every node occurs once, below the node that it was added under, and spans exactly what the
nodes in its tree were given to span. -/
namespace Clarion.Outline

namespace Arena

variable {arena : Arena} {id : NodeId} {node : Node}

/-- The span that a node was given. -/
def storedRange? (arena : Arena) (id : NodeId) : Option Range :=
  (arena.node? id).map (·.info.range)

/-- The tree shows a node as it was made, up to its span and its place among sorted siblings; it
has the trees of the node's children below it, and spans no more than the nodes in it. -/
structure Shows (arena : Arena) (tree : Numbered) : Prop where
  node : ∃ node, arena.node? tree.id = some node ∧
    tree.info = { node.info with range := tree.info.range, sortText := tree.info.sortText } ∧
    (tree.children.map Numbered.id).Perm node.children
  hull : tree.info.range.IsHull (tree.within.filterMap fun part => arena.storedRange? part.id)
  inside : ∀ child ∈ tree.children, tree.info.range.Covers child.info.range

/-- The children stand in the order of their creation, unless the node is a group that sorts
them. -/
def KeepsOrder (arena : Arena) (tree : Numbered) : Prop :=
  ∀ node, arena.node? tree.id = some node → node.group.any Group.sortsChildren = false →
    tree.children.map Numbered.id = node.children

/-- The children of a group that sorts them go by their keys, and bear their places as sort
texts. -/
def SortsByName (arena : Arena) (tree : Numbered) : Prop :=
  ∀ node, arena.node? tree.id = some node → node.group.any Group.sortsChildren →
    tree.children.Pairwise Numbered.GoesBefore ∧
      tree.children.map (·.info.sortText) =
        (List.range tree.children.length).map fun place => some (fourDigits place)

/-- The tree is the whole tree of its node. -/
structure Unfolds (arena : Arena) (tree : Numbered) : Prop where
  shows : ∀ part ∈ tree.within, arena.Shows part
  order : ∀ part ∈ tree.within, arena.KeepsOrder part
  sorted : ∀ part ∈ tree.within, arena.SortsByName part
  once : (tree.within.map Numbered.id).Nodup
  all : ∀ {id}, id ∈ tree.within.map Numbered.id ↔ arena.Under tree.id id

/-- A change of the sort text is a change of the symbol alone. -/
theorem Unfolds.withSortText {tree : Numbered} (unfolds : arena.Unfolds tree) (text : String) :
    arena.Unfolds (tree.withSortText text) := by
  have inner : (tree.withSortText text).within =
      tree.withSortText text :: tree.children.flatMap Numbered.within := Numbered.within_eq _
  have outer := tree.within_eq
  refine ⟨?_, ?_, ?_, ?_, ?_⟩
  · obtain ⟨here, below⟩ := Numbered.forall_within.mp unfolds.shows
    obtain ⟨node, found, info, children⟩ := here.node
    refine Numbered.forall_within.mpr ⟨⟨⟨node, found, ?_, children⟩, ?_, here.inside⟩, below⟩
    · rw [Numbered.withSortText, info]
    · have hull := here.hull
      rw [outer] at hull
      rw [inner]
      exact hull
  · obtain ⟨here, below⟩ := Numbered.forall_within.mp unfolds.order
    exact Numbered.forall_within.mpr ⟨here, below⟩
  · obtain ⟨here, below⟩ := Numbered.forall_within.mp unfolds.sorted
    exact Numbered.forall_within.mpr ⟨here, below⟩
  · have once := unfolds.once
    rw [outer] at once
    rw [inner]
    exact once
  · intro id
    have all : id ∈ tree.within.map Numbered.id ↔ arena.Under tree.id id := unfolds.all
    rw [outer] at all
    rw [inner]
    exact all

/-- Trees of different siblings have no node in common. -/
theorem once_all (shape : arena.WellFormed) {trees : List Numbered} {parent : Option NodeId}
    (unfolds : ∀ tree ∈ trees, arena.Unfolds tree) (distinct : (trees.map Numbered.id).Nodup)
    (siblings : ∀ tree ∈ trees, ∃ node, arena.node? tree.id = some node ∧ node.parent = parent) :
    ((trees.flatMap Numbered.within).map Numbered.id).Nodup := by
  rw [List.map_flatMap, List.nodup_flatMap]
  refine ⟨fun tree member => (unfolds tree member).once, ?_⟩
  refine (List.pairwise_map.mp distinct).imp_of_mem ?_
  intro left right inLeft inRight different id underLeft underRight
  obtain ⟨leftNode, foundLeft, leftParent⟩ := siblings left inLeft
  obtain ⟨rightNode, foundRight, rightParent⟩ := siblings right inRight
  exact different (Under.siblings shape foundLeft foundRight (leftParent.trans rightParent.symm)
    ((unfolds left inLeft).all.mp underLeft) ((unfolds right inRight).all.mp underRight))

/-- The span of a node, widened to the symbols below it. -/
def widened (node : Node) (symbols : List Symbol) : Range :=
  symbols.foldl (fun range symbol => cover range symbol.info.range) node.info.range

/-- A node over whole trees of its children, with its span widened to them, is a whole tree. -/
theorem Arranged.unfolds (arranged : arena.Arranged) (found : arena.node? id = some node)
    {trees : List Numbered} (ids : (trees.map Numbered.id).Perm node.children)
    (order : node.group.any Group.sortsChildren = false → trees.map Numbered.id = node.children)
    (sorted : node.group.any Group.sortsChildren → trees.Pairwise Numbered.GoesBefore ∧
      trees.map (·.info.sortText) =
        (List.range trees.length).map fun place => some (fourDigits place))
    (below : ∀ tree ∈ trees, arena.Unfolds tree) :
    arena.Unfolds
      ⟨id, { node.info with range := widened node (trees.map Numbered.symbol) }, trees⟩ := by
  have member (tree) (inside : tree ∈ trees) : tree.id ∈ node.children :=
    ids.subset (List.mem_map_of_mem inside)
  have siblings (tree) (inside : tree ∈ trees) :
      ∃ lower, arena.node? tree.id = some lower ∧ lower.parent = some id :=
    arranged.child found (member tree inside)
  have covers (other : Range) : other.Covers (widened node (trees.map Numbered.symbol)) ↔
      other.Covers node.info.range ∧ ∀ tree ∈ trees, other.Covers tree.info.range := by
    rw [widened, covers_widened]
    simp
  generalize widened node (trees.map Numbered.symbol) = range at covers
  have top : (⟨id, { node.info with range }, trees⟩ : Numbered).within =
    ⟨id, { node.info with range }, trees⟩ :: trees.flatMap Numbered.within := Numbered.within_eq _
  have shows : arena.Shows ⟨id, { node.info with range }, trees⟩ := by
    refine ⟨⟨node, found, rfl, ids⟩, Range.isHull_of_iff fun other => ?_,
      ((covers range).mp (.refl _)).2⟩
    have own : arena.storedRange? id = some node.info.range := by simp [storedRange?, found]
    -- A child's span is the smallest over its own tree, so it stands for all spans in there.
    have children : (∀ tree ∈ trees, other.Covers tree.info.range) ↔
        ∀ part ∈ (trees.flatMap Numbered.within).filterMap fun part => arena.storedRange? part.id,
          other.Covers part := by
      simp only [List.forall_mem_filterMap, List.forall_mem_flatMap]
      refine forall₂_congr fun tree inside => ?_
      have hull := ((below tree inside).shows tree (tree.within_eq ▸ List.mem_cons_self)).hull
      rw [hull.covers_iff]
      simp only [List.forall_mem_filterMap]
    rw [covers, children, top, List.filterMap_cons, own, List.forall_mem_cons]
  have ordered : arena.KeepsOrder ⟨id, { node.info with range }, trees⟩ := by
    intro again foundAgain
    cases foundAgain.symm.trans found
    exact order
  have byName : arena.SortsByName ⟨id, { node.info with range }, trees⟩ := by
    intro again foundAgain
    cases foundAgain.symm.trans found
    exact sorted
  refine ⟨?_, ?_, ?_, ?_, ?_⟩
  · exact Numbered.forall_within.mpr ⟨shows, fun tree inside => (below tree inside).shows⟩
  · exact Numbered.forall_within.mpr ⟨ordered, fun tree inside => (below tree inside).order⟩
  · exact Numbered.forall_within.mpr ⟨byName, fun tree inside => (below tree inside).sorted⟩
  · have distinct : (trees.map Numbered.id).Nodup :=
      ids.nodup_iff.mpr ((arranged.children found).imp Nat.ne_of_lt)
    rw [top, List.map_cons, List.nodup_cons]
    refine ⟨?_, once_all arranged.toWellFormed below distinct siblings⟩
    intro inside
    rw [List.map_flatMap] at inside
    obtain ⟨tree, inTrees, inTree⟩ := List.mem_flatMap.mp inside
    obtain ⟨lower, foundLower, parent⟩ := siblings tree inTrees
    exact absurd (((below tree inTrees).all.mp inTree).le arranged.toWellFormed)
      (Nat.not_le_of_lt (arranged.parent foundLower parent).1)
  · intro other
    rw [top, List.map_cons, List.mem_cons, List.map_flatMap, List.mem_flatMap,
      under_iff arranged.toWellFormed found]
    refine or_congr Iff.rfl ⟨?_, ?_⟩
    · rintro ⟨tree, inTrees, inTree⟩
      exact ⟨tree.id, member tree inTrees, (below tree inTrees).all.mp inTree⟩
    · rintro ⟨child, listed, under⟩
      obtain ⟨tree, inTrees, rfl⟩ := List.mem_map.mp (ids.symm.subset listed)
      exact ⟨tree, inTrees, (below tree inTrees).all.mpr under⟩

/-- Whole trees for nodes one after the other. -/
theorem exists_trees {ids : List NodeId} {built : NodeId → List Symbol}
    (each : ∀ id ∈ ids, ∃ tree : Numbered, built id = [tree.symbol] ∧ tree.id = id ∧
      arena.Unfolds tree) :
    ∃ trees : List Numbered, ids.flatMap built = trees.map Numbered.symbol ∧
      trees.map Numbered.id = ids ∧ ∀ tree ∈ trees, arena.Unfolds tree := by
  induction ids with
  | nil => exact ⟨[], rfl, rfl, by simp⟩
  | cons id rest ih =>
    obtain ⟨⟨tree, symbol, same, unfolds⟩, later⟩ := List.forall_mem_cons.mp each
    obtain ⟨trees, symbols, sameRest, unfoldsRest⟩ := ih later
    refine ⟨tree :: trees, ?_, ?_, List.forall_mem_cons.mpr ⟨unfolds, unfoldsRest⟩⟩
    · rw [List.flatMap_cons, symbol, symbols, List.singleton_append, List.map_cons]
    · rw [List.map_cons, same, sameRest]

/-- The symbol of a node is its whole tree, if the fuel reaches to the last node. -/
theorem Arranged.exists_tree (arranged : arena.Arranged) {fuel : Nat} (held : arena.Holds id)
    (deep : arena.nodes.size ≤ id + fuel) :
    ∃ tree : Numbered, arena.symbolAt fuel id = [tree.symbol] ∧ tree.id = id ∧
      arena.Unfolds tree := by
  induction fuel generalizing id with
  | zero => exact absurd held (Nat.not_lt_of_le deep)
  | succ fuel ih =>
    obtain ⟨node, found⟩ := held.node?
    obtain ⟨trees, symbols, ids, below⟩ := @exists_trees arena node.children (arena.symbolAt fuel)
      fun child member => by
        obtain ⟨lower, foundLower, parent⟩ := arranged.child found member
        have newer := (arranged.parent foundLower parent).1
        exact ih (holds_of_node? foundLower) (by
          have := Nat.add_le_add_right (Nat.succ_le_of_lt newer) fuel
          omega)
    simp only [symbolAt, found, symbols]
    split
    · rename_i sorts
      have sorted : ∀ tree ∈ Numbered.sortedByName trees, arena.Unfolds tree := by
        intro tree member
        obtain ⟨old, inTrees, text, rfl⟩ := Numbered.mem_sortedByName member
        exact (below old inTrees).withSortText text
      have aged : trees.Pairwise fun left right => left.id < right.id :=
        List.pairwise_map.mp (ids ▸ arranged.children found)
      refine ⟨_, ?_, rfl, arranged.unfolds found
        ((Numbered.map_id_sortedByName trees).trans (ids ▸ .refl _)) (by simp [sorts])
        (fun _ => ⟨Numbered.sortedByName_goesBefore aged,
          Numbered.map_sortText_sortedByName trees⟩) sorted⟩
      rw [Numbered.symbol, Numbered.symbols_eq, Numbered.map_symbol_sortedByName, widened]
    · rename_i plain
      refine ⟨_, ?_, rfl, arranged.unfolds found (ids ▸ .refl _) (fun _ => ids)
        (fun sorts => absurd sorts plain) below⟩
      rw [Numbered.symbol, Numbered.symbols_eq, widened]

/-- The fuel that reaches to the last node is enough: more changes nothing. -/
theorem symbolAt_enough (shape : arena.WellFormed) {fuel more : Nat} (enough : fuel ≤ more)
    (deep : arena.nodes.size ≤ id + fuel) : arena.symbolAt more id = arena.symbolAt fuel id := by
  induction fuel generalizing id more with
  | zero =>
    have missing : arena.node? id = none := Array.getElem?_eq_none deep
    cases more with
    | zero => rfl
    | succ more => simp [symbolAt, missing]
  | succ fuel ih =>
    obtain ⟨more, rfl⟩ := Nat.exists_eq_add_of_lt enough
    simp only [symbolAt]
    cases found : arena.node? id with
    | none => rfl
    | some node =>
      have same : node.children.flatMap (arena.symbolAt (fuel + more)) =
          node.children.flatMap (arena.symbolAt fuel) := by
        refine List.flatMap_congr fun child member => ih (Nat.le_add_right ..) ?_
        obtain ⟨lower, foundLower, parent⟩ := shape.child found member
        have newer := Nat.succ_le_of_lt (shape.parent foundLower parent).1
        have := Nat.add_le_add_right newer fuel
        omega
      simp only [same]

/-- The forest is the finished outline of the arena: it holds every node once, and shows each. -/
structure IsForest (arena : Arena) (forest : List Numbered) : Prop where
  symbols : forest.map Numbered.symbol = arena.toSymbols
  roots : forest.map Numbered.id = arena.roots
  once : ((forest.flatMap Numbered.within).map Numbered.id).Perm (List.range arena.nodes.size)
  shows : ∀ tree ∈ forest.flatMap Numbered.within, arena.Shows tree

/-- The finished outline is a forest, and only groups that sort their children reorder them: by
name, and by age where names agree. -/
theorem Arranged.exists_sorted_forest (arranged : arena.Arranged) :
    ∃ forest, arena.IsForest forest ∧ ∀ tree ∈ forest.flatMap Numbered.within,
      arena.KeepsOrder tree ∧ arena.SortsByName tree := by
  have shape := arranged.toWellFormed
  obtain ⟨forest, symbols, roots, unfolds⟩ := @exists_trees arena arena.roots
    (arena.symbolAt arena.nodes.size) fun root member =>
      arranged.exists_tree (shape.root_holds member) (Nat.le_add_left _ _)
  refine ⟨forest, ⟨symbols.symm, roots, ?_, ?_⟩, ?_⟩
  · have distinct : (forest.map Numbered.id).Nodup := roots ▸ arranged.roots.imp Nat.ne_of_lt
    have atTop (tree) (member : tree ∈ forest) :
        ∃ node, arena.node? tree.id = some node ∧ node.parent = none :=
      shape.root (roots ▸ List.mem_map_of_mem member)
    refine (List.perm_ext_iff_of_nodup (once_all shape unfolds distinct atTop)
      List.nodup_range).mpr fun id => ?_
    rw [List.map_flatMap, List.mem_flatMap, List.mem_range]
    constructor
    · rintro ⟨tree, member, inside⟩
      obtain ⟨part, inTree, rfl⟩ := List.mem_map.mp inside
      obtain ⟨node, found, -⟩ := ((unfolds tree member).shows part inTree).node
      exact holds_of_node? found
    · intro held
      obtain ⟨root, member, -, under⟩ := climb_root shape held held
      obtain ⟨tree, inForest, rfl⟩ := List.mem_map.mp (roots ▸ member)
      exact ⟨tree, inForest, (unfolds tree inForest).all.mpr under⟩
  · exact List.forall_mem_flatMap.mpr fun tree inForest => (unfolds tree inForest).shows
  · refine List.forall_mem_flatMap.mpr fun tree inForest part inside => ?_
    exact ⟨(unfolds tree inForest).order part inside, (unfolds tree inForest).sorted part inside⟩

theorem Arranged.exists_ordered_forest (arranged : arena.Arranged) :
    ∃ forest, arena.IsForest forest ∧ ∀ tree ∈ forest.flatMap Numbered.within,
      arena.KeepsOrder tree := by
  obtain ⟨forest, isForest, each⟩ := arranged.exists_sorted_forest
  exact ⟨forest, isForest, fun tree inside => (each tree inside).1⟩

theorem Arranged.exists_forest (arranged : arena.Arranged) : ∃ forest, arena.IsForest forest := by
  obtain ⟨forest, isForest, -⟩ := arranged.exists_ordered_forest
  exact ⟨forest, isForest⟩

/-- The node stands right below the parent in the forest, or at its root. -/
def StandsUnder (forest : List Numbered) (id : NodeId) : Option NodeId → Prop
  | none => id ∈ forest.map Numbered.id
  | some above => ∃ tree ∈ forest.flatMap Numbered.within, tree.id = above ∧
      id ∈ tree.children.map Numbered.id

theorem IsForest.standsUnder (shape : arena.WellFormed) {forest : List Numbered}
    (isForest : arena.IsForest forest) (found : arena.node? id = some node) :
    StandsUnder forest id node.parent := by
  cases parent : node.parent with
  | none =>
    rw [StandsUnder, isForest.roots]
    exact shape.top found parent
  | some above =>
    obtain ⟨-, upper, foundUpper, member⟩ := shape.parent found parent
    have listed := isForest.once.mem_iff.mpr (List.mem_range.mpr (holds_of_node? foundUpper))
    obtain ⟨tree, inside, rfl⟩ := List.mem_map.mp listed
    obtain ⟨again, foundAgain, -, children⟩ := (isForest.shows tree inside).node
    cases foundAgain.symm.trans foundUpper
    exact ⟨tree, inside, rfl, children.mem_iff.mpr member⟩

/-! ### Arenas by the operations that build them -/

/-- An operation on an outline under construction. -/
inductive Operation where
  | add (parent : Option NodeId) (info : Info)
  | ensureGroup (owner : NodeId) (group : Group)
  | extendTo (id : NodeId) (place : Position)
  | rename (id : NodeId) (name : String)

namespace Operation

variable {operation : Operation} {after : Arena}

/-- The node that an operation refers to. -/
def target? : Operation → Option NodeId
  | add parent _ => parent
  | ensureGroup owner _ => some owner
  | extendTo id _ => some id
  | rename id _ => some id

/-- What an operation makes of an arena. -/
def run (arena : Arena) : Operation → Arena
  | add parent info => (arena.add parent info).1
  | ensureGroup owner group => (arena.ensureGroup owner group).1
  | extendTo id place => arena.extendTo id place
  | rename id name => arena.rename id name

/-- What an operation makes of an arena that holds the node it refers to. -/
def run? (arena : Arena) (operation : Operation) : Option Arena :=
  if operation.target?.all (· < arena.nodes.size) then some (operation.run arena) else none

/-- The parent of the node that an operation creates, when it creates one. -/
def parent? (arena : Arena) : Operation → Option (Option NodeId)
  | add parent _ => some parent
  | ensureGroup owner group =>
    if (arena.group? owner group).isSome then none else some (some owner)
  | extendTo _ _ => none
  | rename _ _ => none

theorem run?_eq_some (applied : operation.run? arena = some after) :
    (∀ id, operation.target? = some id → arena.Holds id) ∧ after = operation.run arena := by
  unfold run? at applied
  split at applied
  · rename_i held
    refine ⟨fun id target => ?_, (Option.some.inj applied).symm⟩
    simpa [target, Holds] using held
  · cases applied

theorem run?_arranged (arranged : arena.Arranged)
    (applied : operation.run? arena = some after) : after.Arranged := by
  obtain ⟨held, rfl⟩ := run?_eq_some applied
  cases operation with
  | add parent info => exact arranged.add held
  | ensureGroup owner group => exact arranged.ensureGroup (held owner rfl) group
  | extendTo id place => exact arranged.extendTo id place
  | rename id name => exact arranged.rename id name

/-- No operation moves a node. -/
theorem run?_parent (applied : operation.run? arena = some after)
    (found : arena.node? id = some node) :
    ∃ later, after.node? id = some later ∧ later.parent = node.parent := by
  obtain ⟨-, rfl⟩ := run?_eq_some applied
  have kept {after : Arena} (grows : arena.Grows after) :
      ∃ later, after.node? id = some later ∧ later.parent = node.parent := by
    obtain ⟨later, foundLater, keeps⟩ := grows.kept found
    exact ⟨later, foundLater, keeps.parent⟩
  cases operation with
  | add parent info => exact kept add_grows
  | ensureGroup owner group => exact kept (ensureGroup_grows ..)
  | extendTo target place => exact kept (extendTo_grows ..)
  | rename target name =>
    unfold node? at found
    simp only [run, Arena.rename, node?, Array.getElem?_modify, found]
    split
    · exact ⟨_, rfl, rfl⟩
    · exact ⟨_, rfl, rfl⟩

/-- A node is created below the parent that the operation names. -/
theorem run?_creates (applied : operation.run? arena = some after) {parent : Option NodeId}
    (creates : operation.parent? arena = some parent) :
    ∃ node, after.node? arena.nodes.size = some node ∧ node.parent = parent := by
  obtain ⟨held, rfl⟩ := run?_eq_some applied
  cases operation with
  | add named info =>
    cases creates
    exact ⟨_, push_node?_new held, rfl⟩
  | ensureGroup owner group =>
    simp only [parent?] at creates
    split at creates
    · cases creates
    · rename_i missing
      cases creates
      obtain ⟨above, found⟩ := (held owner rfl).node?
      rw [run, ensureGroup_new (by simpa using missing) found]
      exact ⟨_, push_node?_new (held owner rfl).ready, rfl⟩
  | extendTo target place => cases creates
  | rename target name => cases creates

end Operation

/-- The arena that operations build from nothing, when each refers to a node that is there. -/
def build? (operations : List Operation) : Option Arena :=
  operations.foldlM Operation.run? {}

/-- The operations carry an arena on to another one. -/
theorem carry_operations {operations : List Operation} {before after : Arena}
    (arranged : before.Arranged)
    (carried : operations.foldlM Operation.run? before = some after) :
    after.Arranged ∧ ∀ {id node}, before.node? id = some node →
      ∃ later, after.node? id = some later ∧ later.parent = node.parent := by
  induction operations generalizing before with
  | nil =>
    cases carried
    exact ⟨arranged, fun found => ⟨_, found, rfl⟩⟩
  | cons operation rest ih =>
    rw [List.foldlM_cons] at carried
    obtain ⟨middle, applied, later⟩ := Option.bind_eq_some_iff.mp carried
    obtain ⟨stillArranged, kept⟩ := ih (Operation.run?_arranged arranged applied) later
    refine ⟨stillArranged, fun found => ?_⟩
    obtain ⟨next, foundNext, same⟩ := Operation.run?_parent applied found
    obtain ⟨last, foundLast, sameLast⟩ := kept foundNext
    exact ⟨last, foundLast, sameLast.trans same⟩

/-- A node that one of the operations created stands below the parent that the operation named. -/
theorem build?_creates {front back : List Operation} {operation : Operation} {before : Arena}
    {parent : Option NodeId} (built : build? (front ++ operation :: back) = some arena)
    (earlier : build? front = some before) (creates : operation.parent? before = some parent) :
    ∃ node, arena.node? before.nodes.size = some node ∧ node.parent = parent := by
  have arranged := (carry_operations .empty earlier).1
  have carried : (operation :: back).foldlM Operation.run? before = some arena := by
    rw [build?, List.foldlM_append] at built
    rw [build?] at earlier
    rwa [earlier] at built
  rw [List.foldlM_cons] at carried
  obtain ⟨middle, applied, later⟩ := Option.bind_eq_some_iff.mp carried
  obtain ⟨node, found, same⟩ := Operation.run?_creates applied creates
  obtain ⟨last, foundLast, sameLast⟩ :=
    (carry_operations (Operation.run?_arranged arranged applied) later).2 found
  exact ⟨last, foundLast, sameLast.trans same⟩

/-- Whatever operations build an arena, the walk up from every node ends at a root, an owner has one
group of each sort, and the finished outline is a forest of all nodes, each of them once and right
below the node that it was added under, with the smallest span over all that its tree was given. In
neither direction does a walk need more steps than there are nodes. -/
theorem operations_build_forest {operations : List Operation}
    (built : build? operations = some arena) :
    (∀ id, arena.Holds id →
      (∃ root ∈ arena.roots,
        arena.climb (·.parent.isNone) arena.nodes.size (some id) = some root ∧
        arena.Under root id) ∧
      ∀ holds fuel, arena.nodes.size ≤ fuel →
        arena.climb holds fuel (some id) = arena.climb holds arena.nodes.size (some id)) ∧
    (∀ id other node otherNode group, arena.node? id = some node →
      arena.node? other = some otherNode → node.group = some group →
      otherNode.group = some group → node.parent = otherNode.parent → id = other) ∧
    (∀ fuel, arena.nodes.size ≤ fuel →
      arena.roots.flatMap (arena.symbolAt fuel) = arena.toSymbols) ∧
    ∃ forest, arena.IsForest forest ∧
      ∀ front operation back before parent, operations = front ++ operation :: back →
        build? front = some before → operation.parent? before = some parent →
        StandsUnder forest before.nodes.size parent := by
  have arranged := (carry_operations .empty built).1
  have shape := arranged.toWellFormed
  obtain ⟨forest, isForest⟩ := arranged.exists_forest
  refine ⟨fun id held => ⟨climb_root shape held held, fun holds fuel enough => ?_⟩, ?_, ?_,
    forest, isForest, ?_⟩
  · refine climb_enough shape holds enough ?_
    rintro _ ⟨⟩
    exact held
  · intro id other node otherNode group found foundOther sort sortOther same
    exact arranged.group_unique found foundOther sort sortOther same
  · intro fuel enough
    exact List.flatMap_congr fun root _ => symbolAt_enough shape enough (Nat.le_add_left _ _)
  · rintro front operation back before parent rfl earlier creates
    obtain ⟨node, found, rfl⟩ := build?_creates built earlier creates
    exact isForest.standsUnder shape found

/-- A class with two properties out of order and a method, renamed and widened on the way. -/
def classOperations : List Operation :=
  let info (name : String) (kind : Kind) (line : Nat) : Info :=
    { name, detail := "", kind
      range := ⟨⟨line, 0⟩, ⟨line, 20⟩⟩
      selection := ⟨⟨line, 0⟩, ⟨line, 5⟩⟩ }
  [.add none (info "Shape" .classDecl 0), .ensureGroup 0 .properties, .ensureGroup 0 .methods,
    .add (some 1) (info "Width  LONG" .property 1), .add (some 1) (info "Height  LONG" .property 2),
    .ensureGroup 0 .properties, .add (some 2) (info "Draw" .method 3), .rename 0 "Figure",
    .extendTo 0 ⟨4, 3⟩]

theorem classOperations_build_forest : ∃ arena, build? classOperations = some arena ∧
    arena.nodes.size = 6 ∧ ∃ forest, arena.IsForest forest ∧ StandsUnder forest 4 (some 1) := by
  refine ⟨_, rfl, rfl, ?_⟩
  obtain ⟨-, -, -, forest, isForest, stands⟩ :=
    operations_build_forest (show build? classOperations = some _ from rfl)
  exact ⟨forest, isForest, stands (classOperations.take 4) _ _ _ _ rfl rfl rfl⟩

end Arena
end Clarion.Outline
