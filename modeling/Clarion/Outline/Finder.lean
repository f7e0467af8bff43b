import Clarion.Outline.Arena

/-! Finding classes, methods and procedures in an outline under construction. -/
namespace Clarion.Outline.Arena

/-- What a root that stands for an undeclared class has after the name of the class. -/
def implementationSuffix : String := " (Implementation)"

/-- The name without the mark of an undeclared class, when it has the mark. -/
def stripImplementation? (name : String) : Option String :=
  let chars := name.toList
  let tail := implementationSuffix.toList
  if tail.isSuffixOf chars then some (String.ofList (chars.take (chars.length - tail.length)))
  else none

/-- The node is the definition of the class of that name, up to letter case. -/
def definesClass (arena : Arena) (name : String) (id : NodeId) : Bool :=
  arena.test id fun node =>
    node.info.kind == .classDecl && (stripImplementation? node.info.name).isNone &&
      Text.sameFold node.info.name name

/-- The definition of a class: first among the roots, then among their children. -/
def findClass (arena : Arena) (name : String) : Option NodeId :=
  (arena.roots.find? (arena.definesClass name)).or
    ((arena.roots.flatMap arena.childrenOf).find? (arena.definesClass name))

/-- The root that collects the methods of an undeclared class. -/
def findImplementationRoot (arena : Arena) (className : String) : Option NodeId :=
  arena.roots.find? fun id =>
    arena.test id fun node =>
      (stripImplementation? node.info.name).any (Text.sameFold · className)

/-- The first child whose identifier is the name, up to letter case. -/
def findByBareName (arena : Arena) (parent : NodeId) (name : String) : Option NodeId :=
  (arena.childrenOf parent).find? fun id =>
    arena.test id fun node => Text.sameFold (bareName node.info.name) name

/-- The method that a class declares under a name. -/
def findMethodDeclaration (arena : Arena) (owner : NodeId) (name : String) : Option NodeId :=
  (arena.group? owner .methods).bind (arena.findByBareName · name)

/-- The implementation of a method, filed under its class or under the undeclared class. -/
def findMethodImplementation (arena : Arena) (className methodName : String) : Option NodeId :=
  let owners := [arena.findClass className, arena.findImplementationRoot className].filterMap id
  let groups := owners.filterMap (arena.group? · .methods)
  (groups.flatMap arena.childrenOf).find? fun id =>
    arena.test id fun node =>
      node.info.traits.isMethodImplementation && Text.sameFold (bareName node.info.name) methodName

/-- The last root that is a global procedure. -/
def lastGlobalProcedure? (arena : Arena) : Option NodeId :=
  arena.roots.reverse.find? fun id =>
    arena.test id fun node => node.info.kind == .procedure && node.info.traits.isGlobalProcedure

end Clarion.Outline.Arena
