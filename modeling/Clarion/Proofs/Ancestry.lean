import Clarion.Proofs.ArenaGrowth

/-! Nodes above and below one another, and the order in which they stand. The walk up from a node
passes ever older nodes until it comes to a root. Children and roots stand in the order of their
creation, and an owner has at most one group of each sort. -/
namespace Clarion.Outline

/-- What a node is apart from its name, its span and what else is shown of it. -/
def Node.links (node : Node) : Option NodeId × List NodeId × Option Group × Kind :=
  (node.parent, node.children, node.group, node.info.kind)

namespace Arena

variable {arena before after : Arena} {top id above owner : NodeId} {node : Node} {group : Group}
  {parent : Option NodeId} {info : Info} {sort : Option Group}

/-- The node lies in the tree of another one. -/
inductive Under (arena : Arena) (top : NodeId) : NodeId → Prop where
  | here : Under arena top top
  | deeper {id above : NodeId} {node : Node} (found : arena.node? id = some node)
    (parent : node.parent = some above) (upper : Under arena top above) : Under arena top id

namespace Under

theorem mono (under : before.Under top id) (grows : before.Grows after) : after.Under top id := by
  induction under with
  | here => exact .here
  | deeper found parent _ ih =>
    obtain ⟨later, foundLater, keeps⟩ := grows.kept found
    exact .deeper foundLater (keeps.parent.trans parent) ih

theorem le (under : arena.Under top id) (shape : arena.WellFormed) : top ≤ id := by
  induction under with
  | here => exact Nat.le_refl _
  | deeper found parent _ ih => exact Nat.le_trans ih (Nat.le_of_lt (shape.parent found parent).1)

/-- Of two nodes above a third, one lies in the tree of the other. -/
theorem comparable {other : NodeId} (under : arena.Under top id)
    (underOther : arena.Under other id) : arena.Under top other ∨ arena.Under other top := by
  induction under with
  | here => exact .inr underOther
  | deeper found parent upper ih =>
    cases underOther with
    | here => exact .inl (.deeper found parent upper)
    | deeper foundAgain parentAgain upperOther =>
      cases foundAgain.symm.trans found
      cases parentAgain.symm.trans parent
      exact ih upperOther

theorem of_root (under : arena.Under top id) (shape : arena.WellFormed) (root : id ∈ arena.roots) :
    top = id := by
  cases under with
  | here => rfl
  | deeper found parent _ =>
    obtain ⟨node, foundAgain, atTop⟩ := shape.root root
    cases foundAgain.symm.trans found
    rw [atTop] at parent
    cases parent

end Under

/-- The tree of a node is the node with the trees of its children. -/
theorem under_iff (shape : arena.WellFormed) (found : arena.node? top = some node) :
    arena.Under top id ↔ id = top ∨ ∃ child ∈ node.children, arena.Under child id := by
  constructor
  · intro under
    induction under with
    | here => exact .inl rfl
    | deeper foundBelow parent _ ih =>
      rcases ih with rfl | ⟨child, member, upper⟩
      · obtain ⟨-, again, foundAgain, listed⟩ := shape.parent foundBelow parent
        cases foundAgain.symm.trans found
        exact .inr ⟨_, listed, .here⟩
      · exact .inr ⟨child, member, .deeper foundBelow parent upper⟩
  · rintro (rfl | ⟨child, member, under⟩)
    · exact .here
    · obtain ⟨lower, foundLower, parent⟩ := shape.child found member
      induction under with
      | here => exact .deeper foundLower parent .here
      | deeper foundBelow parentBelow _ ih => exact .deeper foundBelow parentBelow ih

/-- The trees of two siblings have no node in common. -/
theorem Under.siblings (shape : arena.WellFormed) {left right : NodeId} {leftNode rightNode : Node}
    (foundLeft : arena.node? left = some leftNode) (foundRight : arena.node? right = some rightNode)
    (same : leftNode.parent = rightNode.parent) (underLeft : arena.Under left id)
    (underRight : arena.Under right id) : left = right := by
  -- The one in the tree of the other would lie in the tree of a node below its own parent.
  have apart {left right : NodeId} {leftNode rightNode : Node}
      (foundLeft : arena.node? left = some leftNode)
      (foundRight : arena.node? right = some rightNode)
      (same : leftNode.parent = rightNode.parent) (under : arena.Under left right) :
      left = right := by
    cases under with
    | here => rfl
    | deeper found parent upper =>
      cases found.symm.trans foundRight
      have older := (shape.parent foundLeft (same.trans parent)).1
      exact absurd (upper.le shape) (Nat.not_le_of_lt older)
  rcases underLeft.comparable underRight with under | under
  · exact apart foundLeft foundRight same under
  · exact (apart foundRight foundLeft same.symm under).symm

/-! ### The walk up -/

/-- The walk up that stops at a node without a parent comes to a root. -/
theorem climb_root (shape : arena.WellFormed) {fuel : Nat} (held : arena.Holds id)
    (bound : id < fuel) :
    ∃ root ∈ arena.roots, arena.climb (·.parent.isNone) fuel (some id) = some root ∧
      arena.Under root id := by
  induction fuel generalizing id with
  | zero => exact absurd bound (Nat.not_lt_zero _)
  | succ fuel ih =>
    obtain ⟨node, found⟩ := held.node?
    cases atTop : node.parent with
    | none =>
      refine ⟨id, shape.top found atTop, ?_, .here⟩
      simp [climb, found, atTop]
    | some above =>
      obtain ⟨older, upper, foundUpper, -⟩ := shape.parent found atTop
      obtain ⟨root, member, reached, under⟩ := ih (holds_of_node? foundUpper)
        (Nat.lt_of_lt_of_le older (Nat.lt_succ_iff.mp bound))
      refine ⟨root, member, ?_, .deeper found atTop under⟩
      simpa [climb, found, atTop] using reached

/-- A walk up is over after as many steps as there are nodes: more fuel changes nothing. -/
theorem climb_enough (shape : arena.WellFormed) (holds : Node → Bool) {fuel more : Nat}
    (enough : fuel ≤ more) {current : Option NodeId}
    (bound : ∀ id, current = some id → id < fuel) :
    arena.climb holds more current = arena.climb holds fuel current := by
  induction fuel generalizing more current with
  | zero =>
    cases current with
    | none => cases more <;> rfl
    | some id => exact absurd (bound id rfl) (Nat.not_lt_zero _)
  | succ fuel ih =>
    obtain ⟨more, rfl⟩ := Nat.exists_eq_add_of_lt enough
    cases current with
    | none => rfl
    | some id =>
      simp only [climb]
      cases found : arena.node? id with
      | none => rfl
      | some node =>
        dsimp only
        split
        · rfl
        · apply ih (Nat.le_add_right ..)
          intro above parent
          have older := (shape.parent found parent).1
          exact Nat.lt_of_lt_of_le older (Nat.lt_succ_iff.mp (bound id rfl))

/-! ### The order of creation -/

/-- Children and roots stand in the order of their creation. -/
structure Ordered (arena : Arena) : Prop where
  children : ∀ {id node}, arena.node? id = some node → node.children.Pairwise (· < ·)
  roots : arena.roots.Pairwise (· < ·)

/-- A well-formed arena in the order of creation, in which every group is recorded. -/
structure Arranged (arena : Arena) : Prop extends WellFormed arena, Ordered arena where
  recorded : ∀ {id node group}, arena.node? id = some node → node.group = some group →
    ∃ owner, node.parent = some owner ∧ arena.group? owner group = some id

/-- Nodes of later creation go to the end. -/
private theorem pairwise_concat {ids : List NodeId} {last : NodeId}
    (ordered : ids.Pairwise (· < ·)) (older : ∀ id ∈ ids, id < last) :
    (ids ++ [last]).Pairwise (· < ·) :=
  List.pairwise_append.mpr ⟨ordered, List.pairwise_singleton _ _, by simpa using older⟩

theorem Ordered.push (ordered : arena.Ordered) (shape : arena.WellFormed)
    (ready : ∀ above, parent = some above → arena.Holds above) :
    (arena.push parent info sort).1.Ordered where
  children {id node} found := by
    rcases WellFormed.push_cases ready found with ⟨-, rfl⟩ | ⟨old, foundOld, rfl⟩
    · exact List.Pairwise.nil
    · unfold withChild
      split
      · refine pairwise_concat (ordered.children foundOld) fun child member => ?_
        obtain ⟨lower, foundLower, -⟩ := shape.child foundOld member
        exact holds_of_node? foundLower
      · exact ordered.children foundOld
  roots := by
    rw [push_roots]
    split
    · exact pairwise_concat ordered.roots fun root member => shape.root_holds member
    · exact ordered.roots

namespace Arranged

theorem empty : Arranged {} where
  toWellFormed := WellFormed.empty
  children found := by simp [node?] at found
  roots := List.Pairwise.nil
  recorded found := by simp [node?] at found

theorem add (arranged : arena.Arranged) (ready : ∀ above, parent = some above → arena.Holds above) :
    (arena.add parent info).1.Arranged where
  toWellFormed := arranged.toWellFormed.add ready
  toOrdered := arranged.toOrdered.push arranged.toWellFormed ready
  recorded {id node group} found sorted := by
    rcases WellFormed.push_cases ready found with ⟨-, rfl⟩ | ⟨old, foundOld, rfl⟩
    · cases sorted
    · have keeps := withChild_keeps parent arena.nodes.size id old
      obtain ⟨owner, isParent, known⟩ := arranged.recorded foundOld (keeps.group ▸ sorted)
      exact ⟨owner, keeps.parent.trans isParent, (push_group? ..).trans known⟩

theorem ensureGroup (arranged : arena.Arranged) (held : arena.Holds owner) (group : Group) :
    (arena.ensureGroup owner group).1.Arranged := by
  obtain ⟨shape, known⟩ := arranged.toWellFormed.ensureGroup held group
  have grows := ensureGroup_grows arena owner group
  cases exists? : arena.group? owner group with
  | some id =>
    rw [ensureGroup_old exists?]
    exact arranged
  | none =>
    obtain ⟨above, foundOwner⟩ := held.node?
    rw [ensureGroup_new exists? foundOwner] at shape known grows ⊢
    have ordered : (arena.push (some owner) (groupInfo group above) (some group)).1.Ordered :=
      arranged.toOrdered.push arranged.toWellFormed held.ready
    refine ⟨shape, ⟨ordered.children, ordered.roots⟩, ?_⟩
    intro id node other found sorted
    rcases WellFormed.push_cases held.ready found with ⟨rfl, rfl⟩ | ⟨old, foundOld, rfl⟩
    · cases sorted
      exact ⟨owner, rfl, known⟩
    · have keeps := withChild_keeps (some owner) arena.nodes.size id old
      obtain ⟨upper, isParent, before⟩ := arranged.recorded foundOld (keeps.group ▸ sorted)
      exact ⟨upper, keeps.parent.trans isParent, grows.groups before⟩

/-- What is shown of the nodes may change as long as their links stay. -/
theorem of_links (arranged : before.Arranged)
    (nodes : ∀ id, (after.node? id).map Node.links = (before.node? id).map Node.links)
    (roots : after.roots = before.roots) (groups : after.groups = before.groups) :
    after.Arranged := by
  have carry {first second : Arena}
      (same : ∀ id, (first.node? id).map Node.links = (second.node? id).map Node.links) {id node}
      (found : first.node? id = some node) :
      ∃ other, second.node? id = some other ∧ other.links = node.links := by
    have here := same id
    rw [found, Option.map_some, eq_comm] at here
    exact Option.map_eq_some_iff.mp here
  have back {id : NodeId} {node : Node} (found : after.node? id = some node) := carry nodes found
  have forth {id : NodeId} {node : Node} (found : before.node? id = some node) :=
    carry (fun id => (nodes id).symm) found
  have known (owner : NodeId) (group : Group) :
      after.group? owner group = before.group? owner group := by
    rw [group?, group?, groups]
  simp only [Node.links, Prod.mk.injEq] at back forth
  refine ⟨⟨?_, ?_, ?_, ?_, ?_⟩, ⟨?_, ?_⟩, ?_⟩
  · intro id node above found named
    obtain ⟨old, foundOld, parent, -⟩ := back found
    obtain ⟨older, upper, foundUpper, member⟩ := arranged.parent foundOld (parent.trans named)
    obtain ⟨later, foundLater, -, children, -⟩ := forth foundUpper
    exact ⟨older, later, foundLater, children ▸ member⟩
  · intro id node below found member
    obtain ⟨old, foundOld, -, children, -⟩ := back found
    obtain ⟨lower, foundLower, named⟩ := arranged.child foundOld (children ▸ member)
    obtain ⟨later, foundLater, parent, -⟩ := forth foundLower
    exact ⟨later, foundLater, parent.trans named⟩
  · intro id member
    obtain ⟨old, foundOld, atTop⟩ := arranged.root (roots ▸ member)
    obtain ⟨later, foundLater, parent, -⟩ := forth foundOld
    exact ⟨later, foundLater, parent.trans atTop⟩
  · intro id node found atTop
    obtain ⟨old, foundOld, parent, -⟩ := back found
    exact roots ▸ arranged.top foundOld (parent.trans atTop)
  · intro owner group id recorded
    obtain ⟨old, foundOld, parent, sort, kind⟩ :=
      arranged.group ((known owner group).symm.trans recorded)
    obtain ⟨later, foundLater, sameParent, -, sameSort, sameKind⟩ := forth foundOld
    exact ⟨later, foundLater, sameParent.trans parent, sameSort.trans sort, sameKind.trans kind⟩
  · intro id node found
    obtain ⟨old, foundOld, -, children, -⟩ := back found
    exact children ▸ arranged.children foundOld
  · exact roots ▸ arranged.roots
  · intro id node group found sorted
    obtain ⟨old, foundOld, parent, -, sort, -⟩ := back found
    obtain ⟨owner, isParent, recorded⟩ := arranged.recorded foundOld (sort.trans sorted)
    exact ⟨owner, parent.symm.trans isParent, (known owner group).trans recorded⟩

theorem extendTo (arranged : arena.Arranged) (target : NodeId) (place : Position) :
    (arena.extendTo target place).Arranged := by
  refine arranged.of_links (fun id => ?_) rfl rfl
  obtain ⟨range, moved⟩ := extendTo_node? arena target place id
  rw [moved, Option.map_map]
  rfl

theorem rename (arranged : arena.Arranged) (target : NodeId) (name : String) :
    (arena.rename target name).Arranged := by
  refine arranged.of_links (fun id => ?_) rfl rfl
  simp only [Arena.rename, node?, Array.getElem?_modify]
  split
  · rw [Option.map_map]
    rfl
  · rfl

/-- An owner has at most one group of each sort. -/
theorem group_unique (arranged : arena.Arranged) {other : NodeId} {otherNode : Node}
    (found : arena.node? id = some node) (foundOther : arena.node? other = some otherNode)
    (sort : node.group = some group) (sortOther : otherNode.group = some group)
    (same : node.parent = otherNode.parent) : id = other := by
  obtain ⟨owner, parent, recorded⟩ := arranged.recorded found sort
  obtain ⟨ownerOther, parentOther, recordedOther⟩ := arranged.recorded foundOther sortOther
  rw [parent, parentOther] at same
  cases same
  exact Option.some.inj (recorded.symm.trans recordedOther)

end Arranged
end Arena
end Clarion.Outline
