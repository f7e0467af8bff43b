import Clarion.Proofs.Implementations
import Clarion.Proofs.Names

/-! The owners of method implementations. A method belongs with the methods of a class: one that
declares the method, or the root that collects the methods of an undeclared class. That root is
found again by its displayed name alone, so another symbol of that name gets the methods instead;
this is the only way in which a method comes to another owner. -/
namespace Clarion.Outline.State

variable {tokens : Tokens} {index : Nat} {className methodName : String} {id owner : NodeId}
  {node : Node}

/-! ### Where classes, methods and their groups come from -/

/-- A class that the word for it declares. -/
def DeclaredClass (tokens : Tokens) (id : NodeId) : Prop :=
  (finished tokens).kind? id = some .classDecl ∧ ∃ index token, tokens[index]? = some token ∧
    token.kind = .structureWord ∧ token.reads "CLASS" ∧ BornAt tokens index id

/-- The root that collects the methods of an undeclared class. -/
def IsCollector (tokens : Tokens) (id : NodeId) : Prop :=
  ∃ index className, Founds tokens index className id

theorem IsCollector.kind (collector : IsCollector tokens id) :
    (finished tokens).kind? id = some .classDecl := by
  obtain ⟨index, className, founds⟩ := collector
  exact founds.kind

/-- Every method with a body is the one that some token opens. -/
theorem implementation_origin (found : (finished tokens).node? id = some node)
    (implementation : node.info.traits.isMethodImplementation) :
    ∃ index className methodName owner methods,
      Implements tokens index className methodName owner methods id := by
  cases exists_origin found with
  | plain here opens born made =>
    obtain ⟨info, makes, same⟩ := made.info
    have plain := makes.noMethod
    rw [same] at implementation
    simp_all
  | grouped here opens born made =>
    rw [made.traits] at implementation
    cases implementation
  | method implements born =>
    rcases implements.others id node born found with rfl | ⟨-, traits, -⟩ | ⟨rfl, founds⟩
    · exact ⟨_, _, _, _, _, implements⟩
    · rw [traits] at implementation
      cases implementation
    · obtain ⟨again, token, foundAgain, -, -, -, info⟩ := founds.shown
      cases foundAgain.symm.trans found
      rw [info] at implementation
      cases implementation

/-- A class is declared by the word for it, or collects the methods of an undeclared class. -/
theorem class_origin (kind : (finished tokens).kind? id = some .classDecl) :
    DeclaredClass tokens id ∨ IsCollector tokens id := by
  obtain ⟨node, found, isClass⟩ := Option.map_eq_some_iff.mp kind
  cases exists_origin found with
  | plain here opens born made =>
    obtain ⟨info, makes, same⟩ := made.info
    rw [same] at isClass
    obtain ⟨word, reads⟩ := makes.class isClass
    exact .inl ⟨kind, _, _, here, word, reads, born⟩
  | grouped here opens born made =>
    rw [made.kind] at isClass
    cases isClass
  | method implements born =>
    rcases implements.others id node born found with rfl | ⟨rfl, -⟩ | ⟨rfl, founds⟩
    · cases (implements.last_links found).2.2.symm.trans isClass
    · cases (implements.isGroup.links found).2.2.symm.trans isClass
    · exact .inr ⟨_, _, founds⟩

/-- The token at an index finds the root for its undeclared class by name. -/
def FindsRoot (tokens : Tokens) (index : Nat) (className methodName : String) (root : NodeId) :
    Prop :=
  methodAt? tokens index = some (className, methodName) ∧
    (after tokens index).declaringClass? className methodName = none ∧
    (after tokens index).arena.findImplementationRoot className = some root

/-- Only a class owns methods, unless a root was taken for that of an undeclared class. -/
theorem methods_owner (recorded : (finished tokens).group? owner .methods = some id) :
    (finished tokens).kind? owner = some .classDecl ∨
      ∃ index className methodName, FindsRoot tokens index className methodName owner := by
  obtain ⟨node, found, parent, sort, -⟩ := (arranged_finished tokens).group recorded
  cases exists_origin found with
  | plain here opens born made =>
    rw [made.group] at sort
    cases sort
  | grouped here opens born made =>
    obtain ⟨above, group, sortAgain, parentAgain, -, fits⟩ := made.owner
    cases sortAgain.symm.trans sort
    cases parentAgain.symm.trans parent
    exact .inl fits
  | @method index className methodName other methods last implements born =>
    rcases implements.others id node born found with rfl | ⟨rfl, -⟩ | ⟨rfl, founds⟩
    · cases (implements.last_links found).2.1.symm.trans sort
    · cases (implements.isGroup.links found).1.symm.trans parent
      obtain ⟨made, token, detail, -, -, owns, -⟩ := implements.shown
      cases owns with
      | declared declares =>
        -- The group of a class that declares the method was there before.
        obtain ⟨old, -, recordedOld, -⟩ := declaringClass?_group declares
        have kept := (grows_after tokens (Nat.le_succ index)).groups recordedOld
        cases kept.symm.trans implements.recorded
        exact absurd ((sound_after tokens index).arena.group_holds recordedOld)
          (Nat.not_lt_of_le born.1)
      | collected undeclared foundRoot =>
        exact .inr ⟨_, _, _, implements.opens, undeclared, foundRoot⟩
      | founded undeclared founds => exact .inl founds.kind
    · cases (founds.links found).2.symm.trans sort

/-! ### The rule for owners -/

/-- The owner has a method of that name, up to letter case and parameters. -/
def HoldsMethod (arena : Arena) (owner : NodeId) (name : String) : Prop :=
  ∃ methods child node, arena.group? owner .methods = some methods ∧
    child ∈ arena.childrenOf methods ∧ arena.node? child = some node ∧
    Text.sameFold (bareName node.info.name) (bareName name)

/-- The class may own a method of that name opened at an index: it is declared and has such a method
by then, or it collects the methods of an undeclared class. -/
def MayOwn (tokens : Tokens) (index : Nat) (name : String) (owner : NodeId) : Prop :=
  DeclaredClass tokens owner ∧ HoldsMethod (after tokens index).arena owner name ∨
    IsCollector tokens owner

/-- Every method with a body stands with the methods of a class that may own it, and nothing but a
class has a group for methods. -/
structure MethodsInClasses (tokens : Tokens) : Prop where
  filed : ∀ id node, (finished tokens).node? id = some node →
    node.info.traits.isMethodImplementation → ∃ index methods owner, BornAt tokens index id ∧
      node.parent = some methods ∧ (finished tokens).IsGroup owner .methods methods ∧
      (finished tokens).kind? owner = some .classDecl ∧ MayOwn tokens index node.info.name owner
  owners : ∀ id owner, (finished tokens).IsGroup owner .methods id →
    (finished tokens).kind? owner = some .classDecl

theorem MayOwn.kind {name : String} (mayOwn : MayOwn tokens index name owner) :
    (finished tokens).kind? owner = some .classDecl := by
  rcases mayOwn with ⟨⟨kind, -⟩, -⟩ | collector
  · exact kind
  · exact collector.kind

/-- What counts is the name before the parameters. -/
theorem mayOwn_append (name rest : String) :
    MayOwn tokens index (name ++ " " ++ rest) owner ↔ MayOwn tokens index name owner := by
  simp only [MayOwn, HoldsMethod, bareName_append]

/-- A class that declares a method has it by then. -/
theorem holdsMethod_of_declares {state : State}
    (declares : state.declaringClass? className methodName = some owner) :
    HoldsMethod state.arena owner methodName := by
  obtain ⟨methods, child, recorded, found⟩ := declaringClass?_group declares
  have tested := List.find?_some found
  obtain ⟨node, here, named⟩ := (Option.any_eq_true ..).mp tested
  exact ⟨methods, child, node, recorded, List.mem_of_find?_eq_some found, here,
    sameFold_bareName named⟩

theorem isGroup_owner {other : NodeId} (group : (finished tokens).IsGroup owner .methods id)
    (again : (finished tokens).IsGroup other .methods id) : owner = other := by
  obtain ⟨node, found, parent, -⟩ := group
  exact Option.some.inj (parent.symm.trans (again.links found).1)

/-- Methods stand in classes that may own them exactly when every root that is found by the name of
an undeclared class may own the method it is found for. -/
theorem methods_in_classes_iff : MethodsInClasses tokens ↔
    ∀ index className methodName root, FindsRoot tokens index className methodName root →
      MayOwn tokens index methodName root := by
  have shape := (arranged_finished tokens).toWellFormed
  constructor
  · rintro inClasses index className methodName root ⟨opens, undeclared, foundRoot⟩
    obtain ⟨owner, methods, id, implements⟩ := exists_implements opens
    obtain ⟨node, token, detail, found, -, owns, parent, -, info⟩ := implements.shown
    obtain rfl : root = owner := by
      cases owns with
      | declared declares =>
        rw [undeclared] at declares
        cases declares
      | collected _ foundAgain => exact Option.some.inj (foundRoot.symm.trans foundAgain)
      | founded _ founds =>
        have missing := founds.missing
        rw [foundRoot] at missing
        cases missing
    have implementation : node.info.traits.isMethodImplementation := by
      rw [info]
      rfl
    obtain ⟨other, group, above, born, parentAgain, isGroup, -, mayOwn⟩ :=
      inClasses.filed id node found implementation
    cases parentAgain.symm.trans parent
    cases born.unique implements.born
    cases isGroup_owner isGroup (shape.group implements.finished_group)
    rw [info] at mayOwn
    exact (mayOwn_append ..).mp mayOwn
  · intro rule
    have owners (id owner : NodeId) (isGroup : (finished tokens).IsGroup owner .methods id) :
        (finished tokens).kind? owner = some .classDecl := by
      obtain ⟨node, found, parent, sort, -⟩ := isGroup
      obtain ⟨above, isParent, recorded⟩ := (arranged_finished tokens).recorded found sort
      cases parent.symm.trans isParent
      rcases methods_owner recorded with kind | ⟨index, className, methodName, finds⟩
      · exact kind
      · exact (rule index className methodName owner finds).kind
    refine ⟨fun id node found implementation => ?_, owners⟩
    obtain ⟨index, className, methodName, owner, methods, implements⟩ :=
      implementation_origin found implementation
    have isGroup := shape.group implements.finished_group
    obtain ⟨again, token, detail, foundAgain, -, owns, parent, -, info⟩ := implements.shown
    cases foundAgain.symm.trans found
    refine ⟨index, methods, owner, implements.born, parent, isGroup, owners _ _ isGroup, ?_⟩
    rw [info]
    refine (mayOwn_append ..).mpr ?_
    cases owns with
    | declared declares =>
      exact (class_origin (owners _ _ isGroup)).imp_left
        fun declared => ⟨declared, holdsMethod_of_declares declares⟩
    | collected undeclared foundRoot =>
      exact rule _ _ _ _ ⟨implements.opens, undeclared, foundRoot⟩
    | founded undeclared founds => exact .inr ⟨_, _, founds⟩

/-- A procedure with a parameter of the type `Implementation`, and a method of a class that has the
name of the procedure. -/
def namesakeProcedure : Tokens :=
  [{ kind := .label, value := "Foo", line := 0, start := 0 },
    { kind := .procedure, value := "PROCEDURE", line := 0, start := 8 },
    { kind := .delimiter, value := "(", line := 0, start := 17 },
    { kind := .typeName, value := "Implementation", line := 0, start := 18 },
    { kind := .delimiter, value := ")", line := 0, start := 32 },
    { kind := .label, value := "Foo.Bar", line := 1, start := 0 },
    { kind := .procedure, value := "PROCEDURE", line := 1, start := 8 }]

theorem procedure_takes_the_methods_of_a_class : ¬MethodsInClasses namesakeProcedure := by
  intro inClasses
  have group : ((finished namesakeProcedure).node? 1).map
      (fun node => (node.parent, node.group, node.info.kind)) =
        some (some 0, some .methods, .container) := by
    decide +kernel
  have procedure : (finished namesakeProcedure).kind? 0 = some .procedure := by
    decide +kernel
  obtain ⟨node, found, same⟩ := Option.map_eq_some_iff.mp group
  obtain ⟨parent, sort, kind⟩ := by simpa only [Prod.mk.injEq] using same
  have owner := inClasses.owners 1 0 ⟨node, found, parent, sort, kind⟩
  rw [procedure] at owner
  cases owner

end Clarion.Outline.State
