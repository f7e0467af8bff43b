import Clarion.Proofs.Handles
import Clarion.Proofs.MethodOwners
import Mathlib.Data.List.Nodup

/-! Classes that have methods and no declaration. All methods of such a class, however its name is
capitalized and whatever stands between them, are collected under one root: the first of them
founds it, every later one finds it again by name, and no other token reaches it or the group of
its methods. -/
namespace Clarion.Outline

open Arena (implementationSuffix stripImplementation?)

namespace State

variable {tokens : Tokens} {index : Nat} {className methodName name : String}
  {id owner root methods last : NodeId} {node : Node}

/-! ### The root of an undeclared class -/

theorem Founds.isRoot (founds : Founds tokens index className root) :
    root ∈ (finished tokens).roots := by
  obtain ⟨node, token, found, -, parent, -⟩ := founds.shown
  exact (arranged_finished tokens).top found parent

theorem Founds.ne_last {other : Nat} {otherName : String}
    (founds : Founds tokens other otherName root)
    (implements : Implements tokens index className methodName owner methods last) :
    root ≠ last := by
  rintro rfl
  obtain ⟨node, -, found, -⟩ := founds.shown
  have kind := founds.kind
  rw [Arena.kind?, found, Option.map_some, (implements.last_links found).2.2] at kind
  cases kind

/-- The root that a token founds is the owner of the method it opens. -/
theorem Implements.founded {other : String}
    (implements : Implements tokens index className methodName owner methods last)
    (founds : Founds tokens index other root) : root = owner := by
  obtain ⟨node, -, found, -⟩ := founds.shown
  rcases implements.others root node founds.born found with same | ⟨rfl, -⟩ | ⟨same, -⟩
  · exact absurd same (founds.ne_last implements)
  · exact absurd implements.isGroup founds.not_group
  · exact same

theorem Founds.implements (founds : Founds tokens index className root) :
    ∃ methodName methods last,
      Implements tokens index className methodName root methods last := by
  obtain ⟨methodName, opens⟩ := founds.opens
  obtain ⟨owner, methods, last, implements⟩ := exists_implements opens
  cases implements.founded founds
  exact ⟨methodName, methods, last, implements⟩

/-- The root of an undeclared class is out of reach. -/
theorem Founds.hidden (founds : Founds tokens index className root) : Hidden tokens root := by
  obtain ⟨methodName, methods, last, implements⟩ := founds.implements
  exact ⟨_, _, _, _, _, _, implements, founds.born, founds.ne_last implements⟩

/-- The group of its methods is made together with the root. -/
theorem Founds.born_methods (founds : Founds tokens index className root)
    (recorded : (finished tokens).group? root .methods = some methods) :
    BornAt tokens index methods := by
  obtain ⟨methodName, group, last, implements⟩ := founds.implements
  cases implements.finished_group.symm.trans recorded
  obtain ⟨node, found, parent, -⟩ := implements.isGroup
  have newer := ((arranged_finished tokens).parent found parent).1
  have held := (sound_after tokens (index + 1)).arena.group_holds implements.recorded
  exact ⟨Nat.le_trans founds.born.1 (Nat.le_of_lt newer), held⟩

theorem Founds.methods_shown (founds : Founds tokens index className root)
    (recorded : (finished tokens).group? root .methods = some methods)
    (found : (finished tokens).node? methods = some node) :
    Hidden tokens methods ∧ node.info.name = Group.methods.label := by
  obtain ⟨methodName, group, last, implements⟩ := founds.implements
  cases implements.finished_group.symm.trans recorded
  have born := founds.born_methods recorded
  have noMethod : methods ≠ last := by
    rintro rfl
    cases (implements.last_links found).2.1.symm.trans (implements.isGroup.links found).2.1
  refine ⟨⟨_, _, _, _, _, _, implements, born, noMethod⟩, ?_⟩
  rcases implements.others methods node born found with same | ⟨-, -, name⟩ | ⟨rfl, founded⟩
  · exact absurd same noMethod
  · exact name
  · exact absurd implements.isGroup founded.not_group

/-! ### Finding the root again -/

/-- What is found by the name of an undeclared class is a root with that name and the mark. -/
theorem findImplementationRoot_named {arena : Arena}
    (found : arena.findImplementationRoot className = some root) :
    root ∈ arena.roots ∧ ∃ node part, arena.node? root = some node ∧
      node.info.name = part ++ implementationSuffix ∧ Text.sameFold part className := by
  refine ⟨List.mem_of_find?_eq_some found, ?_⟩
  have tested := List.find?_some found
  obtain ⟨node, here, marked⟩ := (Option.any_eq_true ..).mp tested
  obtain ⟨part, stripped, same⟩ := (Option.any_eq_true ..).mp marked
  exact ⟨node, part, here, stripImplementation?_eq_some_iff.mp stripped, same⟩

/-- The root has its name and its place from the start. -/
theorem Founds.links_earlier {count : Nat} (founds : Founds tokens index className root)
    (bound : count ≤ tokens.length) (found : (after tokens count).arena.node? root = some node) :
    node.parent = none ∧ node.info.name = className ++ implementationSuffix := by
  obtain ⟨final, foundFinal, keeps⟩ := (grows_finished tokens bound).kept found
  exact ⟨keeps.parent.symm.trans (founds.links foundFinal).1,
    keeps.name.symm.trans (founds.named foundFinal)⟩

/-- A root that was there with the name and the mark is found. -/
theorem Founds.found_later {later : Nat} {other : String}
    (founds : Founds tokens index className root) (order : index < later)
    (bound : later ≤ tokens.length) (same : Text.sameFold className other) :
    (after tokens later).arena.findImplementationRoot other ≠ none := by
  intro missing
  obtain ⟨node, found⟩ : ∃ node, (after tokens later).arena.node? root = some node :=
    Arena.Holds.node? (founds.born.lt_size order)
  obtain ⟨atTop, named⟩ := founds.links_earlier bound found
  have listed := (sound_after tokens later).arena.top found atTop
  have failed := List.find?_eq_none.mp missing root listed
  simp [Arena.test, found, stripImplementation?_eq_some_iff.mpr named, same] at failed

/-- An undeclared class has one root, whatever the case of its letters. -/
theorem Founds.unique {other : Nat} {otherName : String} {otherRoot : NodeId}
    (founds : Founds tokens index className root)
    (again : Founds tokens other otherName otherRoot)
    (same : Text.sameFold className otherName) : root = otherRoot := by
  have bound {index : Nat} {className : String} {root : NodeId}
      (founds : Founds tokens index className root) : index ≤ tokens.length := by
    obtain ⟨methodName, opens⟩ := founds.opens
    exact Nat.le_of_lt (lt_length_of_methodAt? opens)
  rcases Nat.lt_trichotomy index other with earlier | rfl | later
  · exact absurd again.missing (founds.found_later earlier (bound again) same)
  · obtain ⟨methodName, methods, last, implements⟩ := founds.implements
    exact (implements.founded again).symm
  · exact absurd founds.missing (again.found_later later (bound founds) (sameFold_symm same))

/-- What is found as the definition of a class is a class of that name without the mark. -/
theorem findClass_defines {arena : Arena} (found : arena.findClass name = some id) :
    ∃ node, arena.node? id = some node ∧ node.info.kind = .classDecl ∧
      stripImplementation? node.info.name = none ∧ Text.sameFold node.info.name name := by
  have defines : arena.definesClass name id := by
    rcases Option.or_eq_some_iff.mp found with atRoot | ⟨-, below⟩
    · exact List.find?_some atRoot
    · exact List.find?_some below
  obtain ⟨node, here, tested⟩ := (Option.any_eq_true ..).mp defines
  simp only [Bool.and_eq_true, beq_iff_eq, Option.isNone_iff_eq_none] at tested
  exact ⟨node, here, tested.1.1, tested.1.2, tested.2⟩

/-- A root that collects methods is never taken for the declaration of a class. -/
theorem Founds.no_declaration {later : Nat} {other : String}
    (founds : Founds tokens index className root) (bound : later ≤ tokens.length) :
    (after tokens later).declaringClass? other methodName ≠ some root := by
  intro declares
  obtain ⟨known, -⟩ := Option.filter_eq_some_iff.mp declares
  rcases Option.or_eq_some_iff.mp known with listed | ⟨-, defined⟩
  · exact not_hidden_of_handles (.definition (mem_of_lookup listed)) founds.hidden
  · obtain ⟨node, found, -, unmarked, -⟩ := findClass_defines defined
    obtain ⟨-, named⟩ := founds.links_earlier bound found
    rw [stripImplementation?_eq_some_iff.mpr named] at unmarked
    cases unmarked

/-! ### Classes without a declaration -/

/-- No class of the document is displayed or labelled with the name, and only the roots of
undeclared classes bear the mark of one. -/
structure IsUndeclared (tokens : Tokens) (name : String) : Prop where
  undeclared : ∀ id node, DeclaredClass tokens id → (finished tokens).node? id = some node →
    ¬Text.sameFold node.info.name name ∧
      ∀ label, node.info.traits.label = some label → ¬Text.sameFold label name
  marked : ∀ id ∈ (finished tokens).roots, ∀ node, (finished tokens).node? id = some node →
    (∃ part, node.info.name = part ++ implementationSuffix) → IsCollector tokens id

/-- A root that is found by the name of an undeclared class was founded for that class. -/
theorem IsUndeclared.collector (undeclared : IsUndeclared tokens name)
    (bound : index ≤ tokens.length)
    (found : (after tokens index).arena.findImplementationRoot className = some root) :
    ∃ origin part, Founds tokens origin part root ∧ Text.sameFold part className := by
  obtain ⟨member, node, part, here, named, same⟩ := findImplementationRoot_named found
  have grows := grows_finished tokens bound
  obtain ⟨final, foundFinal, keeps⟩ := grows.kept here
  have namedFinal : final.info.name = part ++ implementationSuffix := keeps.name.trans named
  obtain ⟨origin, other, founds⟩ :=
    undeclared.marked root (grows.root member) final foundFinal ⟨part, namedFinal⟩
  refine ⟨origin, other, founds, ?_⟩
  rw [← eq_of_marked (namedFinal.symm.trans (founds.named foundFinal))]
  exact same

/-- No class declares a method of an undeclared class. -/
theorem IsUndeclared.no_declaration (undeclared : IsUndeclared tokens name)
    (bound : index ≤ tokens.length) (same : Text.sameFold className name) :
    (after tokens index).declaringClass? className methodName = none := by
  rw [Option.eq_none_iff_forall_ne_some]
  intro owner declares
  have grows := grows_finished tokens bound
  have isClass : (finished tokens).kind? owner = some .classDecl := by
    obtain ⟨methods, -, recorded, -⟩ := declaringClass?_group declares
    rcases methods_owner (grows.groups recorded) with kind | ⟨other, _, _, opens, -, found⟩
    · exact kind
    · obtain ⟨_, _, founds, -⟩ :=
        undeclared.collector (Nat.le_of_lt (lt_length_of_methodAt? opens)) found
      exact founds.kind
  rcases class_origin isClass with declared | ⟨origin, part, founds⟩
  · obtain ⟨known, -⟩ := Option.filter_eq_some_iff.mp declares
    rcases Option.or_eq_some_iff.mp known with listed | ⟨-, defined⟩
    · obtain ⟨node, label, found, labelled, key, -⟩ := classes_define (mem_of_lookup listed)
      obtain ⟨final, foundFinal, keeps⟩ := grows.kept found
      exact (undeclared.undeclared owner final declared foundFinal).2 label
        (keeps.traits ▸ labelled) (sameFold_trans (sameFold_of_foldUpper key) same)
    · obtain ⟨node, found, -, -, displayed⟩ := findClass_defines defined
      obtain ⟨final, foundFinal, keeps⟩ := grows.kept found
      refine (undeclared.undeclared owner final declared foundFinal).1 ?_
      rw [keeps.name]
      exact sameFold_trans displayed same
  · exact founds.no_declaration bound declares

/-- Every method of an undeclared class is filed with a root founded for that class. -/
theorem IsUndeclared.owner_founded (undeclared : IsUndeclared tokens name)
    (same : Text.sameFold className name)
    (implements : Implements tokens index className methodName owner methods last) :
    ∃ origin part, Founds tokens origin part owner ∧ Text.sameFold part name := by
  have bound := Nat.le_of_lt (lt_length_of_methodAt? implements.opens)
  obtain ⟨node, token, detail, -, -, owns, -⟩ := implements.shown
  cases owns with
  | declared declares =>
    rw [undeclared.no_declaration bound same] at declares
    cases declares
  | collected _ found =>
    obtain ⟨origin, part, founds, samePart⟩ := undeclared.collector bound found
    exact ⟨origin, part, founds, sameFold_trans samePart same⟩
  | founded _ founds => exact ⟨index, className, founds, same⟩

/-- What is filed with a root that collects methods is a method of its class. -/
theorem Founds.class_of_method {origin : Nat} {part : String}
    (founds : Founds tokens origin part root)
    (implements : Implements tokens index className methodName root methods last) :
    Text.sameFold part className ∧ ∃ node token, (finished tokens).node? last = some node ∧
      tokens[index]? = some token ∧
      node.info = { methodInfo tokens index token className methodName
        (className ++ "." ++ methodName) with range := node.info.range } := by
  have bound := Nat.le_of_lt (lt_length_of_methodAt? implements.opens)
  obtain ⟨node, token, detail, shown, here, owns, -, -, info⟩ := implements.shown
  cases owns with
  | declared declares => exact absurd declares (founds.no_declaration bound)
  | collected _ found =>
    refine ⟨?_, node, token, shown, here, info⟩
    obtain ⟨-, old, other, foundOld, named, same⟩ := findImplementationRoot_named found
    rw [← eq_of_marked (named.symm.trans (founds.links_earlier bound foundOld).2)]
    exact same
  | founded _ again =>
    refine ⟨?_, node, token, shown, here, info⟩
    obtain ⟨final, -, foundFinal, -⟩ := founds.shown
    rw [eq_of_marked ((again.named foundFinal).symm.trans (founds.named foundFinal))]
    exact sameFold_iff.mpr rfl

/-! ### What stands below the root -/

/-- What stands below a node out of reach was made by a token that opens a method. -/
theorem Hidden.origin_below {above : NodeId} (hidden : Hidden tokens above)
    (owned : ∀ owner group, (finished tokens).IsGroup owner group above → Hidden tokens owner)
    (found : (finished tokens).node? id = some node) (parent : node.parent = some above) :
    ∃ index className methodName owner methods last,
      Implements tokens index className methodName owner methods last ∧
        BornAt tokens index id := by
  have shape := (arranged_finished tokens).toWellFormed
  have older := (shape.parent found parent).1
  cases exists_origin found with
  | @plain index token here opens born made =>
    have place := made.place
    rw [parent] at place
    cases place with
    | below isKnown held =>
      exact absurd hidden (isKnown.not_hidden here opens (Nat.lt_trans older born.2))
    | @inGroup owner _ group isKnown recorded =>
      obtain ⟨groupNode, foundGroup, owner', -⟩ := shape.group recorded
      have oldest := (shape.parent foundGroup owner').1
      exact absurd (owned owner group (shape.group recorded)) (isKnown.not_hidden here opens
        (Nat.lt_trans oldest (Nat.lt_trans older born.2)))
  | grouped here opens born made =>
    obtain ⟨owner, group, -, isParent, isKnown, -⟩ := made.owner
    cases isParent.symm.trans parent
    exact absurd hidden (isKnown.not_hidden here opens (Nat.lt_trans older born.2))
  | method implements born => exact ⟨_, _, _, _, _, _, implements, born⟩

/-- The root has the group of its methods below it, and nothing else. -/
theorem Founds.children (founds : Founds tokens index className root)
    (found : (finished tokens).node? root = some node)
    (recorded : (finished tokens).group? root .methods = some methods) :
    node.children = [methods] := by
  have arranged := arranged_finished tokens
  have only : ∀ child ∈ node.children, child = methods := by
    intro child listed
    obtain ⟨lower, foundLower, parent⟩ := arranged.child found listed
    obtain ⟨other, _, _, owner, group, last, implements, born⟩ :=
      founds.hidden.origin_below (fun _ _ isGroup => absurd isGroup founds.not_group) foundLower
        parent
    rcases implements.others child lower born foundLower with rfl | ⟨rfl, -⟩ | ⟨rfl, again⟩
    · cases (implements.last_links foundLower).1.symm.trans parent
      exact absurd implements.isGroup founds.not_group
    · cases (implements.isGroup.links foundLower).1.symm.trans parent
      exact Option.some.inj (implements.finished_group.symm.trans recorded)
    · rw [(again.links foundLower).1] at parent
      cases parent
  obtain ⟨groupNode, foundGroup, isParent, -⟩ := arranged.group recorded
  obtain ⟨-, upper, foundUpper, listed⟩ := arranged.parent foundGroup isParent
  cases foundUpper.symm.trans found
  have once : node.children.Nodup := (arranged.children found).imp Nat.ne_of_lt
  exact List.perm_singleton.mp ((List.perm_ext_iff_of_nodup once (List.nodup_singleton _)).mpr
    fun child => ⟨fun member => List.mem_singleton.mpr (only child member),
      fun member => List.mem_singleton.mp member ▸ listed⟩)

/-- The group has below it the methods that are filed with the root. -/
theorem Founds.methods_below (founds : Founds tokens index className root)
    (recorded : (finished tokens).group? root .methods = some methods)
    (found : (finished tokens).node? methods = some node) (child : NodeId) :
    child ∈ node.children ↔ ∃ index className methodName,
      Implements tokens index className methodName root methods child := by
  have arranged := arranged_finished tokens
  obtain ⟨atRoot, -, container⟩ := (arranged.group recorded).links found
  constructor
  · intro listed
    obtain ⟨lower, foundLower, parent⟩ := arranged.child found listed
    have ownedByRoot (owner : NodeId) (group : Group)
        (isGroup : (finished tokens).IsGroup owner group methods) : Hidden tokens owner := by
      cases (isGroup.links found).1.symm.trans atRoot
      exact founds.hidden
    obtain ⟨other, _, _, owner, group, last, implements, born⟩ :=
      (founds.methods_shown recorded found).1.origin_below ownedByRoot foundLower parent
    rcases implements.others child lower born foundLower with rfl | ⟨rfl, -⟩ | ⟨rfl, again⟩
    · cases (implements.last_links foundLower).1.symm.trans parent
      cases isGroup_owner implements.isGroup (arranged.group recorded)
      exact ⟨_, _, _, implements⟩
    · -- The group itself never owns methods: it is neither a class nor a root.
      cases (implements.isGroup.links foundLower).1.symm.trans parent
      rcases methods_owner implements.finished_group with kind | ⟨finder, _, _, opens, -, isFound⟩
      · rw [Arena.kind?, found, Option.map_some, container] at kind
        cases kind
      · have member := List.mem_of_find?_eq_some isFound
        have bound := Nat.le_of_lt (lt_length_of_methodAt? opens)
        have isRoot := (grows_finished tokens bound).root member
        obtain ⟨top, foundTop, noParent⟩ := arranged.root isRoot
        cases foundTop.symm.trans found
        rw [atRoot] at noParent
        cases noParent
    · rw [(again.links foundLower).1] at parent
      cases parent
  · rintro ⟨index, className, methodName, implements⟩
    obtain ⟨lower, -, -, foundLower, -⟩ := implements.shown
    obtain ⟨-, upper, foundUpper, listed⟩ :=
      arranged.parent foundLower (implements.last_links foundLower).1
    cases foundUpper.symm.trans found
    exact listed

/-! ### The methods in the order of the source -/

/-- The indices of the tokens that open a method of the class, in the order of the source. -/
def implementers (tokens : Tokens) (name : String) : List Nat :=
  (List.range tokens.length).filter fun index =>
    (methodAt? tokens index).any fun opened => Text.sameFold opened.1 name

theorem mem_implementers : index ∈ implementers tokens name ↔ ∃ className methodName,
    methodAt? tokens index = some (className, methodName) ∧ Text.sameFold className name := by
  rw [implementers, List.mem_filter, List.mem_range, Option.any_eq_true]
  constructor
  · rintro ⟨-, ⟨className, methodName⟩, opens, same⟩
    exact ⟨className, methodName, opens, same⟩
  · rintro ⟨className, methodName, opens, same⟩
    exact ⟨lt_length_of_methodAt? opens, (className, methodName), opens, same⟩

/-- The node that a token makes last. -/
def lastMade (tokens : Tokens) (index : Nat) : NodeId :=
  (after tokens (index + 1)).arena.nodes.size - 1

theorem Implements.last_eq
    (implements : Implements tokens index className methodName owner methods last) :
    last = lastMade tokens index := by
  rw [lastMade, implements.last, Nat.add_sub_cancel]

/-- Every method of an undeclared class is filed with the one root of the class. -/
theorem IsUndeclared.implements (undeclared : IsUndeclared tokens name) {origin : Nat}
    {part : String} (founds : Founds tokens origin part root) (same : Text.sameFold part name)
    (recorded : (finished tokens).group? root .methods = some methods)
    (member : index ∈ implementers tokens name) : ∃ className methodName,
      Implements tokens index className methodName root methods (lastMade tokens index) := by
  obtain ⟨className, methodName, opens, sameClass⟩ := mem_implementers.mp member
  obtain ⟨owner, group, last, implements⟩ := exists_implements opens
  obtain ⟨_, other, again, sameOther⟩ := undeclared.owner_founded sameClass implements
  cases again.unique founds (sameFold_trans sameOther (sameFold_symm same))
  cases implements.finished_group.symm.trans recorded
  exact ⟨className, methodName, implements.last_eq ▸ implements⟩

/-- The methods below the root are those of the class, in the order of the source. -/
theorem IsUndeclared.methods_eq (undeclared : IsUndeclared tokens name) {origin : Nat}
    {part : String} (founds : Founds tokens origin part root) (same : Text.sameFold part name)
    (recorded : (finished tokens).group? root .methods = some methods)
    (found : (finished tokens).node? methods = some node) :
    node.children = (implementers tokens name).map (lastMade tokens) := by
  have sorted := (arranged_finished tokens).children found
  have inOrder : ((implementers tokens name).map (lastMade tokens)).Pairwise (· < ·) := by
    refine List.pairwise_map.mpr ((List.pairwise_lt_range.filter _).imp_of_mem ?_)
    intro first second inFirst inSecond order
    obtain ⟨_, _, early⟩ := undeclared.implements founds same recorded inFirst
    obtain ⟨_, _, late⟩ := undeclared.implements founds same recorded inSecond
    exact Nat.lt_of_lt_of_le (early.born.lt_size order) late.born.1
  have members (child : NodeId) : child ∈ node.children ↔
      child ∈ (implementers tokens name).map (lastMade tokens) := by
    rw [founds.methods_below recorded found, List.mem_map]
    constructor
    · rintro ⟨index, className, methodName, implements⟩
      have sameClass := (founds.class_of_method implements).1
      exact ⟨index, mem_implementers.mpr ⟨className, methodName, implements.opens,
        sameFold_trans (sameFold_symm sameClass) same⟩, implements.last_eq.symm⟩
    · rintro ⟨index, member, rfl⟩
      obtain ⟨className, methodName, implements⟩ :=
        undeclared.implements founds same recorded member
      exact ⟨index, className, methodName, implements⟩
  refine List.Perm.eq_of_pairwise ?_ sorted inOrder
    ((List.perm_ext_iff_of_nodup (sorted.imp Nat.ne_of_lt) (inOrder.imp Nat.ne_of_lt)).mpr members)
  exact fun left right _ _ before after => absurd before (Nat.lt_asymm after)

end State

/-! ### The outline -/

namespace Arena

variable {arena : Arena} {fuel : Nat} {id : NodeId} {node : Node} {symbol : Symbol}

/-- A node that does not sort its children shows them as they were made. -/
theorem symbolAt_unsorted (fuel : Nat) (found : arena.node? id = some node)
    (unsorted : node.group.any Group.sortsChildren = false) :
    ∃ symbol, arena.symbolAt (fuel + 1) id = [symbol] ∧
      symbol.info = { node.info with range := symbol.info.range } ∧
      symbol.children = node.children.flatMap (arena.symbolAt fuel) := by
  simp only [symbolAt, found, unsorted, Bool.false_eq_true, ↓reduceIte]
  exact ⟨_, rfl, rfl, rfl⟩

theorem name_of_mem_symbolAt (member : symbol ∈ arena.symbolAt fuel id) :
    ∃ node, arena.node? id = some node ∧ symbol.info.name = node.info.name := by
  cases fuel with
  | zero => cases member
  | succ fuel =>
    simp only [symbolAt] at member
    split at member
    · cases member
    · rename_i node found
      rw [List.mem_singleton.mp member]
      exact ⟨node, found, rfl⟩

/-- Nodes that show one symbol each show them one after the other. -/
theorem forall₂_symbolAt {indices : List Nat} {place : Nat → NodeId} {shows : Nat → Symbol → Prop}
    (each : ∀ index ∈ indices, ∃ symbol, arena.symbolAt fuel (place index) = [symbol] ∧
      shows index symbol) :
    List.Forall₂ shows indices ((indices.map place).flatMap (arena.symbolAt fuel)) := by
  induction indices with
  | nil => exact .nil
  | cons index rest ih =>
    obtain ⟨⟨symbol, here, shown⟩, later⟩ := List.forall_mem_cons.mp each
    rw [List.map_cons, List.flatMap_cons, here]
    exact .cons shown (ih later)

end Arena

/-- The symbol is displayed as the undeclared class of that name, up to letter case. -/
def Symbol.Collects (name : String) (symbol : Symbol) : Prop :=
  ∃ part, symbol.info.name = part ++ implementationSuffix ∧ Text.sameFold part name

/-- The symbol is that of the method which the token at an index opens. -/
def Symbol.Implements (tokens : Tokens) (index : Nat) (symbol : Symbol) : Prop :=
  ∃ token className methodName, tokens[index]? = some token ∧
    State.methodAt? tokens index = some (className, methodName) ∧
    symbol.info = { methodInfo tokens index token className methodName
      (className ++ "." ++ methodName) with range := symbol.info.range }

open State

variable {tokens : Tokens} {name part : String} {index origin fuel : Nat} {root methods : NodeId}

/-- A token that opens a method of an undeclared class is shown by one symbol. -/
theorem symbolAt_method (undeclared : IsUndeclared tokens name)
    (founds : Founds tokens origin part root) (same : Text.sameFold part name)
    (recorded : (finished tokens).group? root .methods = some methods)
    (member : index ∈ implementers tokens name) :
    ∃ symbol, (finished tokens).symbolAt (fuel + 1) (lastMade tokens index) = [symbol] ∧
      symbol.Implements tokens index := by
  obtain ⟨className, methodName, implements⟩ :=
    undeclared.implements founds same recorded member
  obtain ⟨-, node, token, found, here, info⟩ := founds.class_of_method implements
  have unsorted : node.group.any Group.sortsChildren = false := by
    rw [(implements.last_links found).2.1]
    rfl
  obtain ⟨symbol, alone, shown, -⟩ := Arena.symbolAt_unsorted fuel found unsorted
  refine ⟨symbol, alone, token, className, methodName, here, implements.opens, ?_⟩
  rw [shown, info]

/-- The group of its methods shows them in the order of the source. -/
theorem symbolAt_methods (undeclared : IsUndeclared tokens name)
    (founds : Founds tokens origin part root) (same : Text.sameFold part name)
    (recorded : (finished tokens).group? root .methods = some methods) :
    ∃ symbol, (finished tokens).symbolAt (fuel + 2) methods = [symbol] ∧
      symbol.info.name = "Methods" ∧ symbol.info.kind = .container ∧
      List.Forall₂ (Symbol.Implements tokens) (implementers tokens name) symbol.children := by
  obtain ⟨node, found, -, group, kind⟩ := (arranged_finished tokens).group recorded
  have unsorted : node.group.any Group.sortsChildren = false := by
    rw [group]
    rfl
  obtain ⟨symbol, alone, shown, below⟩ := Arena.symbolAt_unsorted (fuel + 1) found unsorted
  refine ⟨symbol, alone, ?_, ?_, ?_⟩
  · rw [shown]
    exact (founds.methods_shown recorded found).2
  · rw [shown]
    exact kind
  · rw [below, undeclared.methods_eq founds same recorded found]
    exact Arena.forall₂_symbolAt fun index member =>
      symbolAt_method undeclared founds same recorded member

/-- The root shows the group of its methods and nothing else. -/
theorem symbolAt_collector (fuel : Nat) (undeclared : IsUndeclared tokens name)
    (founds : Founds tokens origin part root) (same : Text.sameFold part name) :
    ∃ symbol methods, (finished tokens).symbolAt (fuel + 3) root = [symbol] ∧
      symbol.Collects name ∧ symbol.info.kind = .classDecl ∧ symbol.children = [methods] ∧
      methods.info.name = "Methods" ∧ methods.info.kind = .container ∧
      List.Forall₂ (Symbol.Implements tokens) (implementers tokens name) methods.children := by
  obtain ⟨_, group, _, implements⟩ := founds.implements
  have recorded := implements.finished_group
  obtain ⟨node, found, isClass⟩ := Option.map_eq_some_iff.mp founds.kind
  have unsorted : node.group.any Group.sortsChildren = false := by
    rw [(founds.links found).2]
    rfl
  obtain ⟨symbol, alone, shown, below⟩ := Arena.symbolAt_unsorted (fuel + 2) found unsorted
  obtain ⟨methods, aloneBelow, rest⟩ := symbolAt_methods undeclared founds same recorded
  refine ⟨symbol, methods, alone, ⟨part, ?_, same⟩, ?_, ?_, rest⟩
  · rw [shown]
    exact founds.named found
  · rw [shown]
    exact isClass
  · rw [below, founds.children found recorded, List.flatMap_singleton, aloneBelow]

/-- No other root is displayed as the class. -/
theorem eq_of_collects (undeclared : IsUndeclared tokens name)
    (founds : Founds tokens origin part root) (same : Text.sameFold part name) {id : NodeId}
    {symbol : Symbol} (isRoot : id ∈ (finished tokens).roots)
    (shown : symbol ∈ (finished tokens).symbolAt fuel id) (collects : symbol.Collects name) :
    id = root := by
  obtain ⟨node, found, displayed⟩ := Arena.name_of_mem_symbolAt shown
  obtain ⟨other, marked, sameOther⟩ := collects
  rw [displayed] at marked
  obtain ⟨index, className, again⟩ := undeclared.marked id isRoot node found ⟨other, marked⟩
  cases eq_of_marked (marked.symm.trans (again.named found))
  exact again.unique founds (sameFold_trans sameOther (sameFold_symm same))

/-- All methods of an undeclared class stand under one root, in the order of the source: there is
exactly one root of that name, it has the group of its methods below it and nothing else, and the
group has one symbol for each token that opens a method of the class. -/
theorem undeclared_class_collects_its_methods (undeclared : IsUndeclared tokens name)
    (implemented : implementers tokens name ≠ []) :
    ∃ front root methods back, ofTokens tokens = front ++ root :: back ∧
      root.Collects name ∧ (∀ other ∈ front ++ back, ¬other.Collects name) ∧
      root.info.kind = .classDecl ∧ root.children = [methods] ∧
      methods.info.name = "Methods" ∧ methods.info.kind = .container ∧
      List.Forall₂ (Symbol.Implements tokens) (implementers tokens name) methods.children := by
  have arranged := arranged_finished tokens
  obtain ⟨index, member⟩ := List.exists_mem_of_ne_nil _ implemented
  obtain ⟨className, methodName, opens, sameClass⟩ := mem_implementers.mp member
  obtain ⟨id, group, last, implements⟩ := exists_implements opens
  obtain ⟨origin, part, founds, same⟩ := undeclared.owner_founded sameClass implements
  -- The root, its group and the method are three nodes, so the depth suffices for all of them.
  obtain ⟨fuel, size⟩ : ∃ fuel, (finished tokens).nodes.size = fuel + 3 := by
    obtain ⟨groupNode, foundGroup, atRoot, -⟩ := implements.isGroup
    obtain ⟨node, -, -, found, -⟩ := implements.shown
    have second : 0 < group :=
      Nat.lt_of_le_of_lt (Nat.zero_le id) (arranged.parent foundGroup atRoot).1
    have third : 1 < last :=
      Nat.lt_of_le_of_lt second (arranged.parent found (implements.last_links found).1).1
    exact Nat.exists_eq_add_of_le' (Nat.lt_of_le_of_lt third (Arena.holds_of_node? found))
  obtain ⟨root, methods, alone, collects, rest⟩ :=
    symbolAt_collector fuel undeclared founds same
  obtain ⟨older, newer, split⟩ := List.append_of_mem founds.isRoot
  have once : (older ++ id :: newer).Nodup := split ▸ arranged.roots.imp Nat.ne_of_lt
  refine ⟨older.flatMap ((finished tokens).symbolAt (fuel + 3)), root, methods,
    newer.flatMap ((finished tokens).symbolAt (fuel + 3)), ?_, collects, ?_, rest⟩
  · calc ofTokens tokens
        = (finished tokens).roots.flatMap ((finished tokens).symbolAt (fuel + 3)) := by
          rw [← size]
          rfl
      _ = _ := by rw [split, List.flatMap_append, List.flatMap_cons, alone, List.singleton_append]
  · intro other listed shown
    rw [← List.flatMap_append, List.mem_flatMap] at listed
    obtain ⟨otherId, among, shows⟩ := listed
    have isRoot : otherId ∈ (finished tokens).roots := by
      rw [split, List.perm_middle.mem_iff]
      exact List.mem_cons_of_mem _ among
    cases eq_of_collects undeclared founds same isRoot shows shown
    exact (List.nodup_cons.mp (List.nodup_middle.mp once)).1 among

/-- Two methods of one undeclared class, in different letter case, with a method of another class
and a global procedure between them. -/
def scatteredMethods : Tokens :=
  [{ kind := .label, value := "Foo.One", line := 0, start := 0 },
    { kind := .procedure, value := "PROCEDURE", line := 0, start := 10 },
    { kind := .label, value := "Bar.Two", line := 1, start := 0 },
    { kind := .procedure, value := "PROCEDURE", line := 1, start := 10 },
    { kind := .label, value := "Main", line := 2, start := 0 },
    { kind := .procedure, value := "PROCEDURE", line := 2, start := 10 },
    { kind := .label, value := "FOO.Three", line := 3, start := 0 },
    { kind := .procedure, value := "PROCEDURE", line := 3, start := 10 }]

theorem scatteredMethods_undeclared : IsUndeclared scatteredMethods "foo" := by
  have noClass (id : NodeId) : ¬DeclaredClass scatteredMethods id := by
    rintro ⟨-, index, token, here, word, -⟩
    have plain : ∀ token ∈ scatteredMethods, token.kind ≠ .structureWord := by decide
    exact plain token (List.mem_of_getElem? here) word
  have roots : ∀ id ∈ (finished scatteredMethods).roots,
      (finished scatteredMethods).kind? id = some .classDecl ∨
        ((finished scatteredMethods).node? id).all
          fun node => (stripImplementation? node.info.name).isNone := by
    decide +kernel
  refine ⟨fun id _ declared => absurd declared (noClass id), fun id isRoot node found marked => ?_⟩
  obtain ⟨part, named⟩ := marked
  rcases roots id isRoot with kind | unmarked
  · exact (class_origin kind).resolve_left (noClass id)
  · rw [found] at unmarked
    simp [stripImplementation?_eq_some_iff.mpr named] at unmarked

theorem scatteredMethods_collected : IsUndeclared scatteredMethods "foo" ∧
    implementers scatteredMethods "foo" = [1, 7] ∧
    ∃ front root methods back, ofTokens scatteredMethods = front ++ root :: back ∧
      root.Collects "foo" ∧ (∀ other ∈ front ++ back, ¬other.Collects "foo") ∧
      root.info.kind = .classDecl ∧ root.children = [methods] ∧
      methods.info.name = "Methods" ∧ methods.info.kind = .container ∧
      List.Forall₂ (Symbol.Implements scatteredMethods) [1, 7] methods.children := by
  have opened : implementers scatteredMethods "foo" = [1, 7] := by decide +kernel
  have collected := undeclared_class_collects_its_methods scatteredMethods_undeclared
    (by rw [opened]; exact List.cons_ne_nil _ _)
  rw [opened] at collected
  exact ⟨scatteredMethods_undeclared, opened, collected⟩

end Clarion.Outline
