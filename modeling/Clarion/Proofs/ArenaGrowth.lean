import Clarion.Outline.Finder
import Mathlib.Data.List.Find

/-! Nodes are only ever added to an outline under construction. What a node is, where it stands and
which group it is stay fixed from its creation on; only its span and the list of its children grow.
Beside that growth stands the shape of an arena: parents come before their children, children and
parents agree, and the recorded groups are children of their owners. -/
namespace Clarion.Outline

/-- A later form of a node: the span may have moved and children may have been added. -/
structure Node.Keeps (node later : Node) : Prop where
  info : later.info = { node.info with range := later.info.range }
  parent : later.parent = node.parent
  group : later.group = node.group
  children : node.children <+: later.children

namespace Node.Keeps

variable {node middle later : Node}

theorem refl (node : Node) : node.Keeps node :=
  ⟨rfl, rfl, rfl, List.prefix_refl _⟩

theorem trans (first : node.Keeps middle) (second : middle.Keeps later) : node.Keeps later :=
  ⟨by rw [second.info, first.info], second.parent.trans first.parent,
    second.group.trans first.group, first.children.trans second.children⟩

theorem kind (kept : node.Keeps later) : later.info.kind = node.info.kind := by
  rw [kept.info]

theorem traits (kept : node.Keeps later) : later.info.traits = node.info.traits := by
  rw [kept.info]

theorem name (kept : node.Keeps later) : later.info.name = node.info.name := by
  rw [kept.info]

end Node.Keeps

namespace Arena

variable {arena before middle after : Arena} {id above owner : NodeId} {node : Node} {kind : Kind}
  {group : Group} {parent : Option NodeId} {info : Info} {sort : Option Group}

/-- The index belongs to a node. -/
def Holds (arena : Arena) (id : NodeId) : Prop :=
  id < arena.nodes.size

theorem holds_of_node? (found : arena.node? id = some node) : arena.Holds id :=
  (Array.getElem?_eq_some_iff.mp found).1

theorem holds_of_kind? (found : arena.kind? id = some kind) : arena.Holds id := by
  obtain ⟨node, here, -⟩ := Option.map_eq_some_iff.mp found
  exact holds_of_node? here

theorem Holds.node? (held : arena.Holds id) : ∃ node, arena.node? id = some node :=
  ⟨_, Array.getElem?_eq_getElem held⟩

/-- A node that is there can be a parent. -/
theorem Holds.ready (held : arena.Holds id) :
    ∀ above, some id = some above → arena.Holds above := by
  rintro _ ⟨⟩
  exact held

/-- Every node, root and group of the earlier arena is still there in the later one, and the roots
that were added are nodes that were added. -/
structure Grows (before after : Arena) : Prop where
  size : before.nodes.size ≤ after.nodes.size
  kept : ∀ {id node}, before.node? id = some node → ∃ later, after.node? id = some later ∧
    node.Keeps later
  roots : ∃ added, after.roots = before.roots ++ added ∧ ∀ id ∈ added, before.nodes.size ≤ id
  groups : ∀ {owner group id}, before.group? owner group = some id →
    after.group? owner group = some id

namespace Grows

theorem refl (arena : Arena) : arena.Grows arena :=
  ⟨Nat.le_refl _, fun found => ⟨_, found, .refl _⟩, ⟨[], by simp⟩, fun found => found⟩

theorem trans (first : before.Grows middle) (second : middle.Grows after) :
    before.Grows after where
  size := Nat.le_trans first.size second.size
  kept found := by
    obtain ⟨_, inMiddle, keepsFirst⟩ := first.kept found
    obtain ⟨later, inAfter, keepsSecond⟩ := second.kept inMiddle
    exact ⟨later, inAfter, keepsFirst.trans keepsSecond⟩
  roots := by
    obtain ⟨front, startsWith, fresh⟩ := first.roots
    obtain ⟨back, goesOn, fresher⟩ := second.roots
    refine ⟨front ++ back, by rw [goesOn, startsWith, List.append_assoc], ?_⟩
    intro id member
    rcases List.mem_append.mp member with member | member
    · exact fresh id member
    · exact Nat.le_trans first.size (fresher id member)
  groups found := second.groups (first.groups found)

theorem holds (grows : before.Grows after) (held : before.Holds id) : after.Holds id :=
  Nat.lt_of_lt_of_le held grows.size

theorem root (grows : before.Grows after) (member : id ∈ before.roots) : id ∈ after.roots := by
  obtain ⟨added, same, -⟩ := grows.roots
  exact same ▸ List.mem_append_left _ member

theorem kind? (grows : before.Grows after) (found : before.kind? id = some kind) :
    after.kind? id = some kind := by
  obtain ⟨node, held, rfl⟩ := Option.map_eq_some_iff.mp found
  obtain ⟨later, heldLater, keeps⟩ := grows.kept held
  simp [Arena.kind?, heldLater, keeps.kind]

/-- The kind of a node that is there already is the same before and after. -/
theorem kind?_eq (grows : before.Grows after) (held : before.Holds id) :
    after.kind? id = before.kind? id := by
  obtain ⟨node, found⟩ := held.node?
  have same : before.kind? id = some node.info.kind := by simp [Arena.kind?, found]
  rw [same, grows.kind? same]

end Grows

/-! ### Creating a node -/

/-- The node that a parent becomes when a child is created below it. -/
def withChild (parent : Option NodeId) (child id : NodeId) (node : Node) : Node :=
  if parent = some id then { node with children := node.children ++ [child] } else node

theorem withChild_keeps (parent : Option NodeId) (child id : NodeId) (node : Node) :
    node.Keeps (withChild parent child id node) := by
  unfold withChild
  split
  · exact ⟨rfl, rfl, rfl, List.prefix_append _ _⟩
  · exact .refl _

@[simp] theorem push_id (arena : Arena) (parent : Option NodeId) (info : Info)
    (sort : Option Group) : (arena.push parent info sort).2 = arena.nodes.size := by
  cases parent <;> rfl

@[simp] theorem push_size (arena : Arena) (parent : Option NodeId) (info : Info)
    (sort : Option Group) :
    (arena.push parent info sort).1.nodes.size = arena.nodes.size + 1 := by
  cases parent <;> simp [push]

@[simp] theorem push_group? (arena : Arena) (parent : Option NodeId) (info : Info)
    (sort : Option Group) (owner : NodeId) (group : Group) :
    (arena.push parent info sort).1.group? owner group = arena.group? owner group := by
  cases parent <;> rfl

theorem push_roots (arena : Arena) (parent : Option NodeId) (info : Info)
    (sort : Option Group) : (arena.push parent info sort).1.roots =
      if parent = none then arena.roots ++ [arena.nodes.size] else arena.roots := by
  cases parent <;> simp [push]

/-- The created node stands at the end, without children. -/
theorem push_node?_new (ready : ∀ above, parent = some above → arena.Holds above) :
    (arena.push parent info sort).1.node? arena.nodes.size =
      some { info, parent, group := sort } := by
  cases parent with
  | none => simp [push, node?]
  | some above =>
    have different : above ≠ arena.nodes.size := Nat.ne_of_lt (ready above rfl)
    simp only [push, node?, Array.getElem?_modify, different, ↓reduceIte, Array.getElem?_push_size]

/-- The created node is what was asked for, whatever its parent. -/
theorem push_made (arena : Arena) (parent : Option NodeId) (info : Info) (sort : Option Group) :
    ∃ children, (arena.push parent info sort).1.node? arena.nodes.size =
      some { info, parent, children, group := sort } := by
  cases parent with
  | none => exact ⟨[], by simp [push, node?]⟩
  | some above =>
    by_cases same : above = arena.nodes.size
    · refine ⟨[arena.nodes.size], ?_⟩
      simp only [push, node?, Array.getElem?_modify, same, ↓reduceIte, Array.getElem?_push_size,
        Option.map_some, List.nil_append]
    · refine ⟨[], ?_⟩
      simp only [push, node?, Array.getElem?_modify, same, ↓reduceIte, Array.getElem?_push_size]

/-- Every other node stays as it is, except that the parent has one more child. -/
theorem push_node?_old (found : arena.node? id = some node) :
    (arena.push parent info sort).1.node? id =
      some (withChild parent arena.nodes.size id node) := by
  have different : id ≠ arena.nodes.size := Nat.ne_of_lt (holds_of_node? found)
  unfold node? at found
  cases parent with
  | none => simp [push, node?, withChild, Array.getElem?_push, different, found]
  | some above =>
    simp only [push, node?, Array.getElem?_modify, Array.getElem?_push, different, ↓reduceIte,
      found, withChild, Option.some.injEq, Option.map_some]
    split <;> rfl

theorem push_grows : arena.Grows (arena.push parent info sort).1 where
  size := by simp
  kept found := ⟨_, push_node?_old found, withChild_keeps ..⟩
  roots := by
    rw [push_roots]
    split
    · exact ⟨[arena.nodes.size], rfl, by simp⟩
    · exact ⟨[], by simp⟩
  groups found := by simpa using found

theorem add_grows : arena.Grows (arena.add parent info).1 :=
  push_grows

@[simp] theorem add_id (arena : Arena) (parent : Option NodeId) (info : Info) :
    (arena.add parent info).2 = arena.nodes.size :=
  push_id ..

@[simp] theorem add_size (arena : Arena) (parent : Option NodeId) (info : Info) :
    (arena.add parent info).1.nodes.size = arena.nodes.size + 1 :=
  push_size ..

/-- Moving the end of a span leaves everything else about every node alone. -/
theorem extendTo_node? (arena : Arena) (target : NodeId) (place : Position) (id : NodeId) :
    ∃ range : Node → Range, (arena.extendTo target place).node? id =
      (arena.node? id).map fun node => { node with info := { node.info with range := range node } } := by
  by_cases same : target = id
  · subst target
    refine ⟨fun node => if place.isAfter node.info.range.stop then ⟨node.info.range.start, place⟩
      else node.info.range, ?_⟩
    simp only [extendTo, node?, Array.getElem?_modify, ↓reduceIte]
    congr 1
    funext node
    split <;> rfl
  · refine ⟨fun node => node.info.range, ?_⟩
    simp [extendTo, node?, Array.getElem?_modify, same]

theorem extendTo_grows (arena : Arena) (target : NodeId) (place : Position) :
    arena.Grows (arena.extendTo target place) where
  size := by simp [extendTo]
  kept {id node} found := by
    obtain ⟨range, moved⟩ := extendTo_node? arena target place id
    rw [found] at moved
    exact ⟨_, moved, rfl, rfl, rfl, List.prefix_refl _⟩
  roots := ⟨[], by simp [extendTo]⟩
  groups found := found

/-! ### Groups -/

/-- What a group shows when it is created below a node. -/
def groupInfo (group : Group) (above : Node) : Info where
  name := group.label
  detail := ""
  kind := .container
  range := above.info.range
  selection := above.info.selection
  sortText := some group.sortText

/-- The group of an owner, when it has to be created. -/
theorem ensureGroup_new (missing : arena.group? owner group = none)
    (found : arena.node? owner = some node) :
    arena.ensureGroup owner group =
      ({ (arena.push (some owner) (groupInfo group node) (some group)).1 with
          groups := ((owner, group), arena.nodes.size) :: arena.groups }, arena.nodes.size) := by
  simp [ensureGroup, missing, found, push, groupInfo]

theorem ensureGroup_old (found : arena.group? owner group = some id) :
    arena.ensureGroup owner group = (arena, id) := by
  simp [ensureGroup, found]

theorem ensureGroup_grows (arena : Arena) (owner : NodeId) (group : Group) :
    arena.Grows (arena.ensureGroup owner group).1 := by
  cases exists? : arena.group? owner group with
  | some id =>
    rw [ensureGroup_old exists?]
    exact .refl _
  | none =>
    cases found : arena.node? owner with
    | none =>
      simp only [ensureGroup, exists?, found]
      exact .refl _
    | some above =>
      rw [ensureGroup_new exists? found]
      refine ⟨push_grows.size, push_grows.kept, push_grows.roots, ?_⟩
      intro other otherGroup id held
      have different : ¬(other = owner ∧ otherGroup = group) := by
        rintro ⟨rfl, rfl⟩
        simp [exists?] at held
      have unequal : ((other, otherGroup) == (owner, group)) = false := by
        simpa using different
      simpa [group?, List.lookup_cons, unequal] using held

/-! ### The shape of an arena -/

/-- The node is the group of that sort below its owner. -/
def IsGroup (arena : Arena) (owner : NodeId) (group : Group) (id : NodeId) : Prop :=
  ∃ node, arena.node? id = some node ∧ node.parent = some owner ∧ node.group = some group ∧
    node.info.kind = .container

theorem IsGroup.mono (is : before.IsGroup owner group id) (grows : before.Grows after) :
    after.IsGroup owner group id := by
  obtain ⟨node, found, parent, sort, kind⟩ := is
  obtain ⟨later, foundLater, keeps⟩ := grows.kept found
  exact ⟨later, foundLater, keeps.parent.trans parent, keeps.group.trans sort,
    keeps.kind.trans kind⟩

theorem IsGroup.links (is : arena.IsGroup owner group id) (found : arena.node? id = some node) :
    node.parent = some owner ∧ node.group = some group ∧ node.info.kind = .container := by
  obtain ⟨again, foundAgain, links⟩ := is
  cases foundAgain.symm.trans found
  exact links

/-- Parents come first, children and parents agree, and groups are children of their owners. -/
structure WellFormed (arena : Arena) : Prop where
  parent : ∀ {id node above}, arena.node? id = some node → node.parent = some above →
    above < id ∧ ∃ upper, arena.node? above = some upper ∧ id ∈ upper.children
  child : ∀ {id node below}, arena.node? id = some node → below ∈ node.children →
    ∃ lower, arena.node? below = some lower ∧ lower.parent = some id
  root : ∀ {id}, id ∈ arena.roots → ∃ node, arena.node? id = some node ∧ node.parent = none
  top : ∀ {id node}, arena.node? id = some node → node.parent = none → id ∈ arena.roots
  group : ∀ {owner group id}, arena.group? owner group = some id → arena.IsGroup owner group id

namespace WellFormed

theorem empty : WellFormed {} where
  parent found := by simp [node?] at found
  child found := by simp [node?] at found
  root member := by simp at member
  top found := by simp [node?] at found
  group found := by simp [group?] at found

theorem root_holds (shape : arena.WellFormed) (member : id ∈ arena.roots) : arena.Holds id := by
  obtain ⟨node, found, -⟩ := shape.root member
  exact holds_of_node? found

theorem group_holds (shape : arena.WellFormed) {owner : NodeId} {group : Group}
    (recorded : arena.group? owner group = some id) : arena.Holds id := by
  obtain ⟨node, found, -⟩ := shape.group recorded
  exact holds_of_node? found

/-- A node of the arena after a creation is the created one, or an old one with at most one more
child. -/
theorem push_cases (ready : ∀ above, parent = some above → arena.Holds above)
    (found : (arena.push parent info sort).1.node? id = some node) :
    (id = arena.nodes.size ∧ node = { info, parent, group := sort }) ∨
      ∃ old, arena.node? id = some old ∧ node = withChild parent arena.nodes.size id old := by
  by_cases held : arena.Holds id
  · obtain ⟨old, foundOld⟩ := held.node?
    rw [push_node?_old foundOld] at found
    exact .inr ⟨old, foundOld, (Option.some.inj found).symm⟩
  · have bound := holds_of_node? found
    rw [Holds, push_size] at bound
    obtain rfl : id = arena.nodes.size :=
      Nat.le_antisymm (Nat.lt_succ_iff.mp bound) (Nat.le_of_not_lt held)
    rw [push_node?_new ready] at found
    exact .inl ⟨rfl, (Option.some.inj found).symm⟩

@[simp] theorem withChild_parent (parent : Option NodeId) (child id : NodeId) (node : Node) :
    (withChild parent child id node).parent = node.parent :=
  (withChild_keeps parent child id node).parent

private theorem mem_withChild {child : NodeId} {below : NodeId} :
    below ∈ (withChild parent child id node).children ↔
      below ∈ node.children ∨ (parent = some id ∧ below = child) := by
  unfold withChild
  split
  · rename_i same
    simp [same]
  · rename_i different
    simp [different]

/-- Creating a node below one that is there keeps the shape. -/
theorem push (shape : arena.WellFormed) (ready : ∀ above, parent = some above → arena.Holds above) :
    (arena.push parent info sort).1.WellFormed where
  parent {id node above} found named := by
    rcases push_cases ready found with ⟨rfl, rfl⟩ | ⟨old, foundOld, rfl⟩
    · obtain ⟨upper, foundUpper⟩ := (ready above named).node?
      exact ⟨ready above named, _, push_node?_old foundUpper, mem_withChild.mpr (.inr ⟨named, rfl⟩)⟩
    · rw [withChild_parent] at named
      obtain ⟨first, upper, foundUpper, member⟩ := shape.parent foundOld named
      exact ⟨first, _, push_node?_old foundUpper, mem_withChild.mpr (.inl member)⟩
  child {id node below} found member := by
    rcases push_cases ready found with ⟨rfl, rfl⟩ | ⟨old, foundOld, rfl⟩
    · simp at member
    · rcases mem_withChild.mp member with member | ⟨named, rfl⟩
      · obtain ⟨lower, foundLower, named⟩ := shape.child foundOld member
        exact ⟨_, push_node?_old foundLower, by rw [withChild_parent, named]⟩
      · exact ⟨_, push_node?_new ready, named⟩
  root {id} member := by
    rw [push_roots] at member
    split at member
    · rename_i atRoot
      rcases List.mem_append.mp member with member | member
      · obtain ⟨node, found, named⟩ := shape.root member
        exact ⟨_, push_node?_old found, by rw [withChild_parent, named]⟩
      · rw [List.mem_singleton.mp member]
        exact ⟨_, push_node?_new ready, atRoot⟩
    · obtain ⟨node, found, named⟩ := shape.root member
      exact ⟨_, push_node?_old found, by rw [withChild_parent, named]⟩
  top {id node} found named := by
    rcases push_cases ready found with ⟨rfl, rfl⟩ | ⟨old, foundOld, rfl⟩
    · rw [push_roots, if_pos named]
      exact List.mem_append_right _ (List.mem_singleton_self _)
    · rw [withChild_parent] at named
      exact push_grows.root (shape.top foundOld named)
  group recorded := (shape.group (by simpa using recorded)).mono push_grows

theorem add (shape : arena.WellFormed) (ready : ∀ above, parent = some above → arena.Holds above) :
    (arena.add parent info).1.WellFormed :=
  shape.push ready

theorem extendTo (shape : arena.WellFormed) (target : NodeId) (place : Position) :
    (arena.extendTo target place).WellFormed := by
  have back : ∀ {id node}, (arena.extendTo target place).node? id = some node →
      ∃ old, arena.node? id = some old ∧ node.parent = old.parent ∧
        node.children = old.children := by
    intro id node found
    obtain ⟨range, moved⟩ := extendTo_node? arena target place id
    rw [moved] at found
    obtain ⟨old, foundOld, rfl⟩ := Option.map_eq_some_iff.mp found
    exact ⟨old, foundOld, rfl, rfl⟩
  have grows := extendTo_grows arena target place
  constructor
  · intro id node above found named
    obtain ⟨old, foundOld, parent, -⟩ := back found
    obtain ⟨first, upper, foundUpper, member⟩ := shape.parent foundOld (parent ▸ named)
    obtain ⟨later, foundLater, keeps⟩ := grows.kept foundUpper
    exact ⟨first, later, foundLater, keeps.children.subset member⟩
  · intro id node below found member
    obtain ⟨old, foundOld, -, children⟩ := back found
    obtain ⟨lower, foundLower, named⟩ := shape.child foundOld (children ▸ member)
    obtain ⟨later, foundLater, keeps⟩ := grows.kept foundLower
    exact ⟨later, foundLater, keeps.parent.trans named⟩
  · intro id member
    obtain ⟨node, found, named⟩ := shape.root member
    obtain ⟨later, foundLater, keeps⟩ := grows.kept found
    exact ⟨later, foundLater, keeps.parent.trans named⟩
  · intro id node found named
    obtain ⟨old, foundOld, parent, -⟩ := back found
    exact shape.top foundOld (parent ▸ named)
  · intro owner group id recorded
    exact (shape.group recorded).mono grows

/-- Asking for a group keeps the shape, and the answer is the group. -/
theorem ensureGroup (shape : arena.WellFormed) (held : arena.Holds owner) (group : Group) :
    (arena.ensureGroup owner group).1.WellFormed ∧
      (arena.ensureGroup owner group).1.group? owner group =
        some (arena.ensureGroup owner group).2 := by
  cases exists? : arena.group? owner group with
  | some id =>
    rw [ensureGroup_old exists?]
    exact ⟨shape, exists?⟩
  | none =>
    obtain ⟨above, found⟩ := held.node?
    have grows := ensureGroup_grows arena owner group
    rw [ensureGroup_new exists? found] at grows ⊢
    refine ⟨?_, by simp [group?]⟩
    have pushed : (arena.push (some owner) (groupInfo group above) (some group)).1.WellFormed :=
      shape.push held.ready
    refine ⟨pushed.parent, pushed.child, pushed.root, pushed.top, ?_⟩
    intro other otherGroup id recorded
    by_cases same : (other, otherGroup) = (owner, group)
    · obtain ⟨rfl, rfl⟩ := Prod.mk.inj same
      obtain rfl : arena.nodes.size = id := by
        simpa [group?, List.lookup_cons] using recorded
      exact ⟨_, push_node?_new held.ready, rfl, rfl, rfl⟩
    · have unequal : ((other, otherGroup) == (owner, group)) = false := by
        simpa using same
      have before : arena.group? other otherGroup = some id := by
        simpa [group?, List.lookup_cons, unequal] using recorded
      exact (shape.group before).mono grows

end WellFormed

/-- A node that is created becomes the last child of its parent. -/
theorem childrenOf_add (held : arena.Holds above) (info : Info) (id : NodeId) :
    (arena.add (some above) info).1.childrenOf id =
      arena.childrenOf id ++ if above = id then [arena.nodes.size] else [] := by
  by_cases old : arena.Holds id
  · obtain ⟨node, found⟩ := old.node?
    rw [childrenOf, childrenOf, add, push_node?_old found, found]
    simp only [Option.elim_some, withChild, Option.some.injEq]
    split
    · rfl
    · simp
  · have missing : arena.node? id = none := by
      simpa [node?] using Nat.le_of_not_lt old
    have other : above ≠ id := fun same => old (same ▸ held)
    rw [if_neg other, List.append_nil, childrenOf, childrenOf, missing]
    cases found : (arena.add (some above) info).1.node? id with
    | none => rfl
    | some node =>
      rcases WellFormed.push_cases held.ready found with ⟨-, rfl⟩ | ⟨_, foundOld, -⟩
      · rfl
      · simp [missing] at foundOld

/-- A group that has to be created is the only node added. -/
theorem ensureGroup_cases (held : arena.Holds owner)
    (found : (arena.ensureGroup owner group).1.node? id = some node) :
    arena.Holds id ∨ id = (arena.ensureGroup owner group).2 ∧ ∃ above,
      node = { info := groupInfo group above, parent := some owner, group := some group } := by
  cases exists? : arena.group? owner group with
  | some other =>
    rw [ensureGroup_old exists?] at found
    exact .inl (holds_of_node? found)
  | none =>
    obtain ⟨above, foundOwner⟩ := held.node?
    rw [ensureGroup_new exists? foundOwner] at found ⊢
    rcases WellFormed.push_cases held.ready found with ⟨rfl, rfl⟩ | ⟨old, foundOld, -⟩
    · exact .inr ⟨rfl, above, rfl⟩
    · exact .inl (holds_of_node? foundOld)

theorem ensureGroup_kind? (held : arena.Holds owner)
    (found : (arena.ensureGroup owner group).1.kind? id = some kind) :
    arena.kind? id = some kind ∨ kind = .container := by
  obtain ⟨node, here, rfl⟩ := Option.map_eq_some_iff.mp found
  rcases ensureGroup_cases held here with old | ⟨-, above, rfl⟩
  · exact .inl (((ensureGroup_grows arena owner group).kind?_eq old).symm.trans found)
  · exact .inr rfl

/-- The last global procedure is one that was added, or it was the last one before. -/
theorem Grows.lastGlobal (grows : before.Grows after) (shape : before.WellFormed)
    (found : after.lastGlobalProcedure? = some id) :
    before.nodes.size ≤ id ∨ before.lastGlobalProcedure? = some id := by
  obtain ⟨added, same, fresh⟩ := grows.roots
  unfold lastGlobalProcedure? at found ⊢
  rw [same, List.reverse_append, List.find?_append] at found
  rcases Option.or_eq_some_iff.mp found with found | ⟨-, found⟩
  · exact .inl (fresh id (List.mem_reverse.mp (List.mem_of_find?_eq_some found)))
  · refine .inr (found ▸ List.find?_congr fun root member => ?_)
    obtain ⟨node, held, -⟩ := shape.root (List.mem_reverse.mp member)
    obtain ⟨later, heldLater, keeps⟩ := grows.kept held
    simp [test, held, heldLater, keeps.kind, keeps.traits]

end Arena
end Clarion.Outline
