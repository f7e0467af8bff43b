import Clarion.Text.Basic

/-! Symbols of a document's outline: a tree of named things with the lines they span. -/
namespace Clarion

/-- A place in a document, by line and column from zero. -/
structure Position where
  line : Nat
  column : Nat
deriving Repr, DecidableEq, Inhabited

/-- The first place lies strictly after the second. -/
def Position.isAfter (left right : Position) : Bool :=
  right.line < left.line || (left.line == right.line && right.column < left.column)

/-- A span from one place up to another. -/
structure Range where
  start : Position
  stop : Position
deriving Repr, DecidableEq, Inhabited

namespace Outline

/-- The role of a symbol in its document. -/
inductive Kind where
  | procedure | method | routine | variableDecl | property | field | structureDecl | classDecl
  | interfaceDecl | moduleDecl | container | window | control | key | marker
deriving Repr, DecidableEq, Inhabited

namespace Kind

/-- The written name of a kind. -/
def name : Kind → String
  | .procedure => "Procedure"
  | .method => "Method"
  | .routine => "Routine"
  | .variableDecl => "Variable"
  | .property => "Property"
  | .field => "Field"
  | .structureDecl => "Structure"
  | .classDecl => "Class"
  | .interfaceDecl => "Interface"
  | .moduleDecl => "Module"
  | .container => "Container"
  | .window => "Window"
  | .control => "Control"
  | .key => "Key"
  | .marker => "Marker"

/-- Every kind with its written name. -/
def names : List (String × Kind) :=
  [.procedure, .method, .routine, .variableDecl, .property, .field, .structureDecl, .classDecl,
    .interfaceDecl, .moduleDecl, .container, .window, .control, .key, .marker].map
    fun kind => (name kind, kind)

/-- The number that editors know the kind by. -/
def editorCode : Kind → Nat
  | .procedure => 12
  | .method => 6
  | .routine => 12
  | .variableDecl => 13
  | .property => 7
  | .field => 8
  | .structureDecl => 23
  | .classDecl => 5
  | .interfaceDecl => 11
  | .moduleDecl => 2
  | .container => 3
  | .window => 19
  | .control => 19
  | .key => 20
  | .marker => 24

/-- Procedures and methods, which own local data and a code section. -/
def isCallable : Kind → Bool
  | .procedure | .method => true
  | _ => false

/-- Kinds that group declarations. -/
def isStructural : Kind → Bool
  | .structureDecl | .classDecl | .interfaceDecl | .moduleDecl | .window | .control => true
  | _ => false

/-- Kinds whose block holds prototypes. -/
def isDefinition : Kind → Bool
  | .classDecl | .interfaceDecl | .moduleDecl => true
  | _ => false

end Kind

/-- What the language says about a symbol beyond its name and place. -/
structure Traits where
  isMethodImplementation : Bool := false
  isMethodDeclaration : Bool := false
  isGlobalProcedure : Bool := false
  /-- A routine whose name holds `::`. -/
  isSpecialRoutine : Bool := false
  isInterface : Bool := false
  isMapProcedure : Bool := false
  finishesAt : Option Nat := none
  /-- The prefix of the fields, declared by `PRE(…)`. -/
  fieldPrefix : Option String := none
  label : Option String := none
  /-- The declared type, without the attributes after it. -/
  dataType : Option String := none
  dataName : Option String := none
  isPartOfStructure : Bool := false
  /-- Capital spellings under which a field may also be named. -/
  references : List String := []
deriving Repr, DecidableEq, Inhabited

/-- A symbol without its children. -/
structure Info where
  name : String
  detail : String
  kind : Kind
  range : Range
  /-- The span of the symbol's own name. -/
  selection : Range
  sortText : Option String := none
  traits : Traits := {}
deriving Repr, DecidableEq, Inhabited

/-- A symbol of the outline with the symbols below it. -/
structure Symbol where
  info : Info
  children : List Symbol
deriving Repr, Inhabited

/-- The identifier at the head of a displayed name: all before the first blank or parenthesis. -/
def bareName (name : String) : String :=
  String.ofList (name.toList.takeWhile fun c => !(Text.isBlank c || c == '('))

namespace Symbol

/-- The first child of that name, up to letter case. -/
def child? (symbol : Symbol) (name : String) : Option Symbol :=
  symbol.children.find? fun child => Text.sameFold child.info.name name

mutual

/-- The number of symbols in a tree. -/
def count : Symbol → Nat
  | ⟨_, children⟩ => countAll children + 1

/-- The number of symbols in a forest. -/
def countAll : List Symbol → Nat
  | [] => 0
  | symbol :: rest => count symbol + countAll rest

end

mutual

/-- The symbols of a tree from top to bottom, each with the names above it. -/
def preorder (path : List String) : Symbol → List (Symbol × List String)
  | ⟨info, children⟩ => (⟨info, children⟩, path) :: preorderAll (path ++ [info.name]) children

/-- The symbols of a forest from top to bottom, each with the names above it. -/
def preorderAll (path : List String) : List Symbol → List (Symbol × List String)
  | [] => []
  | symbol :: rest => preorder path symbol ++ preorderAll path rest

end

theorem countAll_append (front back : List Symbol) :
    countAll (front ++ back) = countAll front + countAll back := by
  induction front with
  | nil => simp [countAll]
  | cons symbol rest ih => simp [countAll, ih, Nat.add_assoc]

end Symbol

/-- A traversal under way: the symbols whose trees are still to visit, each with the names above
it. -/
abbrev Traversal := List (Symbol × List String)

namespace Traversal

/-- The traversal that has a forest before it. -/
def start (symbols : List Symbol) : Traversal :=
  symbols.map fun symbol => (symbol, [])

/-- Visits the first symbol. Its children are put before all else, from the last to the first. -/
def next? : Traversal → Option ((Symbol × List String) × Traversal)
  | [] => none
  | (⟨info, children⟩, path) :: rest =>
    let below := path ++ [info.name]
    some ((⟨info, children⟩, path),
      children.reverse.foldl (fun waiting child => (child, below) :: waiting) rest)

theorem next?_cons (info : Info) (children : List Symbol) (path : List String)
    (rest : Traversal) : next? ((⟨info, children⟩, path) :: rest) =
      some ((⟨info, children⟩, path),
        children.map (fun child => (child, path ++ [info.name])) ++ rest) := by
  simp [next?, List.foldr_cons_eq_append]

/-- The number of symbols still to visit. -/
def count (traversal : Traversal) : Nat :=
  Symbol.countAll (traversal.map Prod.fst)

theorem count_next? {traversal later : Traversal} {item : Symbol × List String}
    (visits : traversal.next? = some (item, later)) : traversal.count = later.count + 1 := by
  match traversal with
  | [] => cases visits
  | (⟨info, children⟩, path) :: rest =>
    rw [next?_cons] at visits
    cases visits
    simp [count, Symbol.countAll, Symbol.count, Symbol.countAll_append, Function.comp_def]
    omega

/-- What the traversal visits until nothing is left. -/
def visits (traversal : Traversal) : List (Symbol × List String) :=
  match _ : traversal.next? with
  | none => []
  | some (item, later) => item :: visits later
termination_by traversal.count
decreasing_by
  have fewer := count_next? ‹_›
  omega

end Traversal

/-- Every symbol of an outline with the names above it, in the order of the document. -/
def Symbol.visited (symbols : List Symbol) : List (Symbol × List String) :=
  (Traversal.start symbols).visits

/-! ### Symbols for editors

An editor takes the kind by its number, and an empty detail and an empty list of children are
absent. -/

/-- A symbol as editors take it, with the symbols below it. -/
structure EditorSymbol where
  name : String
  detail : Option String
  code : Nat
  range : Range
  selection : Range
  children : Option (List EditorSymbol)
deriving Inhabited

namespace Symbol

mutual

/-- The symbol for editors. -/
def toEditor : Symbol → EditorSymbol
  | ⟨info, children⟩ =>
    let below := allToEditor children
    { name := info.name
      detail := if info.detail.isEmpty then none else some info.detail
      code := info.kind.editorCode
      range := info.range
      selection := info.selection
      children := if below.isEmpty then none else some below }

/-- The symbols of a forest for editors. -/
def allToEditor : List Symbol → List EditorSymbol
  | [] => []
  | symbol :: rest => toEditor symbol :: allToEditor rest

end

end Symbol

end Outline
end Clarion
