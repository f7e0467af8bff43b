import Clarion.Project.ProjectFile
import Clarion.Proofs.MarkupForest
import Mathlib.Data.List.Basic

/-! What a project file says, told by the tree of its elements: its items in the order in which
they stand, its properties by their first text that counts, and its references each with the texts
right inside it. What two parts say one after the other is what the first says and then the
second. -/
namespace Clarion.ProjectFile

/-! ### Places -/

/-- A node with the names of the elements around it in small letters, innermost first. -/
structure Placed where
  around : List String
  node : Xml.Node

mutual

/-- A node and all that stands inside it, in document order. -/
def placed (around : List String) : Xml.Node → List Placed
  | .element name attributes children =>
    ⟨around, .element name attributes children⟩ :: placedAll (elementName name :: around) children
  | .empty name attributes => [⟨around, .empty name attributes⟩]
  | .text raw => [⟨around, .text raw⟩]

/-- The nodes of a forest and all that stands inside them, in document order. -/
def placedAll (around : List String) : List Xml.Node → List Placed
  | [] => []
  | node :: rest => placed around node ++ placedAll around rest

end

/-- The name of an element in small letters. -/
def name? (node : Xml.Node) : Option String :=
  node.tag?.map (elementName ·.1)

/-- The value of a text, without blanks around it. -/
def value? : Xml.Node → Option String
  | .text raw => (Xml.resolve? raw).map fun value => String.ofList (Text.trimChars value)
  | _ => none

/-- What an element includes: nothing is as good as an empty value. -/
def includeOrEmpty (attributes : List Char) : String :=
  match includeValue attributes with
  | .ok (some value) => value
  | _ => ""

/-- What keeps attributes from being read. -/
def includeFault? (attributes : List Char) : Option MarkupFault :=
  match includeValue attributes with
  | .error fault => some fault
  | .ok _ => none

/-- The texts right inside the elements of the name that stand right inside a node. -/
def textsInside (name : String) (node : Xml.Node) : List String :=
  (node.children.filter (name? · = some name)).flatMap fun child => child.children.filterMap value?

namespace Placed

/-- The node is an element of the name right inside a group of items: what it includes. -/
def item? (name : String) (place : Placed) : Option String :=
  if place.around.head? = some "itemgroup" ∧ name? place.node = some name then
    place.node.tag?.map (includeOrEmpty ·.2)
  else none

/-- The node is a reference right inside a group of items: what it includes, and the last texts of
its `Project` and its `Name`. -/
def reference? (place : Placed) : Option ProjectReference :=
  (place.item? "projectreference").map fun target =>
    { target
      project := (textsInside "project" place.node).getLast?.bind Uuid.parse?
      name := (textsInside "name" place.node).getLast? }

/-- The node is a text in an element of the name right inside an element called `outer`: its
value. -/
def textIn? (outer name : String) (place : Placed) : Option String :=
  if place.around.take 2 = [name, outer] then value? place.node else none

/-- What keeps a node from being read: a text with a reference that cannot be resolved, or the
attributes of an element right inside a group of items. -/
def fault? (place : Placed) : Option MarkupFault :=
  match place.node with
  | .text raw => if (Xml.resolve? raw).isNone then some .text else none
  | .element _ attributes _ | .empty _ attributes =>
    if place.around.head? = some "itemgroup" then includeFault? attributes else none

end Placed

/-- What nodes say, each at its place. -/
def meaning (places : List Placed) : ProjectFile where
  guid := (places.filterMap (·.textIn? "propertygroup" "projectguid")).findSome? Uuid.parse?
  assemblyName := (places.filterMap (·.textIn? "propertygroup" "assemblyname")).find? (· ≠ "")
  outputName := (places.filterMap (·.textIn? "propertygroup" "outputname")).find? (· ≠ "")
  model := (places.filterMap (·.textIn? "propertygroup" "model")).find? (· ≠ "")
  outputType := (places.filterMap (·.textIn? "propertygroup" "outputtype")).find? (· ≠ "")
  compile := places.filterMap (·.item? "compile")
  fileDrivers := places.filterMap (·.item? "filedriver")
  libraries := places.filterMap (·.item? "library")
  projectReferences := places.filterMap (·.reference?)
  others := places.filterMap (·.item? "none")

/-- No reference stands inside another, at any depth. -/
def ReferencesApart (places : List Placed) : Prop :=
  ∀ place ∈ places, name? place.node = some "projectreference" → "projectreference" ∉ place.around

instance (places : List Placed) : Decidable (ReferencesApart places) :=
  inferInstanceAs (Decidable (∀ place ∈ places, _ → _))

/-! ### One part after another -/

/-- What a file says, and what is said later on: the first value of a property counts. -/
def merge (file later : ProjectFile) : ProjectFile where
  guid := file.guid.or later.guid
  assemblyName := file.assemblyName.or later.assemblyName
  outputName := file.outputName.or later.outputName
  model := file.model.or later.model
  outputType := file.outputType.or later.outputType
  compile := file.compile ++ later.compile
  fileDrivers := file.fileDrivers ++ later.fileDrivers
  libraries := file.libraries ++ later.libraries
  projectReferences := file.projectReferences ++ later.projectReferences
  others := file.others ++ later.others

@[simp] theorem merge_empty (file : ProjectFile) : file.merge {} = file := by
  simp [merge]

@[simp] theorem empty_merge (file : ProjectFile) : merge {} file = file := by
  simp [merge]

theorem merge_assoc (file later last : ProjectFile) :
    (file.merge later).merge last = file.merge (later.merge last) := by
  simp [merge, Option.or_assoc]

@[simp] theorem meaning_nil : meaning [] = {} := rfl

theorem meaning_append (front back : List Placed) :
    meaning (front ++ back) = (meaning front).merge (meaning back) := by
  simp only [meaning, merge, List.filterMap_append, List.findSome?_append, List.find?_append]

/-- A reference with the texts right inside it that places hold: the last ones count. -/
def withTexts (reference : ProjectReference) (places : List Placed) : ProjectReference :=
  { reference with
    project :=
      (((places.filterMap (·.textIn? "projectreference" "project")).map Uuid.parse?).getLast?).getD
        reference.project
    name := (places.filterMap (·.textIn? "projectreference" "name")).getLast?.or reference.name }

@[simp] theorem withTexts_nil (reference : ProjectReference) :
    withTexts reference [] = reference := by
  simp [withTexts]

theorem withTexts_append (reference : ProjectReference) (front back : List Placed) :
    withTexts (withTexts reference front) back = withTexts reference (front ++ back) := by
  simp [withTexts, List.getLast?_append, Option.or_assoc, Option.getD_or]

/-! ### Single places -/

section Places

variable {around : List String} {raw name attributes : List Char} {children : List Xml.Node}
  {outer inner : String}

namespace Placed

@[simp] theorem item?_text : item? inner ⟨around, .text raw⟩ = none :=
  if_neg fun isItem => nomatch isItem.2

@[simp] theorem reference?_text : reference? ⟨around, .text raw⟩ = none := by
  rw [reference?, item?_text, Option.map_none]

/-- The values of a text that can be read, at its place. -/
theorem texts_text {value : String} (read : value? (.text raw) = some value) :
    [⟨around, .text raw⟩].filterMap (textIn? outer inner) =
      if around.take 2 = [inner, outer] then [value] else [] := by
  by_cases inside : around.take 2 = [inner, outer] <;> simp [textIn?, inside, read]

theorem textIn?_of_tag {node : Xml.Node} (tagged : node.tag? = some (name, attributes)) :
    textIn? outer inner ⟨around, node⟩ = none := by
  have noText : value? node = none := by cases node <;> trivial
  rw [textIn?, noText, ite_self]

end Placed

theorem texts_element : (placed around (.element name attributes children)).filterMap
    (Placed.textIn? outer inner) =
      (placedAll (elementName name :: around) children).filterMap (Placed.textIn? outer inner) := by
  rw [placed, List.filterMap_cons_none (Placed.textIn?_of_tag rfl)]

theorem texts_empty :
    (placed around (.empty name attributes)).filterMap (Placed.textIn? outer inner) = [] :=
  List.filterMap_cons_none (Placed.textIn?_of_tag rfl)

mutual

/-- What stands inside a node is surrounded by what surrounds the node. -/
theorem suffix_around {place : Placed} (around : List String) (node : Xml.Node)
    (here : place ∈ placed around node) : around <:+ place.around :=
  match node with
  | .element name _ children => by
    rcases List.mem_cons.mp here with rfl | below
    · exact List.suffix_rfl
    · exact (List.suffix_cons _ _).trans
        (suffix_around_all (elementName name :: around) children below)
  | .empty _ _ | .text _ => List.mem_singleton.mp here ▸ List.suffix_rfl

theorem suffix_around_all {place : Placed} (around : List String) (forest : List Xml.Node)
    (here : place ∈ placedAll around forest) : around <:+ place.around :=
  match forest with
  | node :: rest => (List.mem_append.mp here).elim (suffix_around around node)
      (suffix_around_all around rest)

end

/-- No element of the places is a reference. -/
def WithoutReference (places : List Placed) : Prop :=
  ∀ place ∈ places, name? place.node ≠ some "projectreference"

theorem withoutReference_of_apart {forest : List Xml.Node}
    (inside : "projectreference" ∈ around) (apart : ReferencesApart (placedAll around forest)) :
    WithoutReference (placedAll around forest) := fun place here isReference =>
  apart place here isReference ((suffix_around_all around forest here).mem inside)

theorem WithoutReference.reference?_eq_nil {places : List Placed}
    (free : WithoutReference places) : places.filterMap Placed.reference? = [] := by
  rw [List.filterMap_eq_nil_iff]
  intro place here
  rw [Placed.reference?, Placed.item?, if_neg fun isItem => free place here isItem.2, Option.map_none]

@[simp] theorem withoutReference_append {front back : List Placed} :
    WithoutReference (front ++ back) ↔ WithoutReference front ∧ WithoutReference back :=
  List.forall_mem_append

mutual

/-- Below an element that is neither a reference nor right inside one no text is right inside an
element of a reference. -/
theorem texts_apart (around : List String) (node : Xml.Node)
    (own : around.head? ≠ some "projectreference")
    (next : around.tail.head? ≠ some "projectreference")
    (free : WithoutReference (placed around node)) :
    (placed around node).filterMap (·.textIn? "projectreference" inner) = [] :=
  match node with
  | .element name attributes children => by
    obtain ⟨plain, free⟩ := List.forall_mem_cons.mp free
    exact texts_element.trans
      (texts_apart_all (elementName name :: around) children plain own free)
  | .empty _ _ => texts_empty
  | .text _ => List.filterMap_cons_none <| if_neg fun inside => next <| by
    match around, inside with
    | [_, _], rfl => rfl

theorem texts_apart_all (around : List String) (forest : List Xml.Node)
    (own : around.head? ≠ some "projectreference")
    (next : around.tail.head? ≠ some "projectreference")
    (free : WithoutReference (placedAll around forest)) :
    (placedAll around forest).filterMap (·.textIn? "projectreference" inner) = [] :=
  match forest with
  | [] => rfl
  | node :: rest => by
    obtain ⟨here, later⟩ := withoutReference_append.mp free
    rw [placedAll, List.filterMap_append, texts_apart around node own next here,
      texts_apart_all around rest own next later, List.append_nil]

end

/-- The texts of a reference below one of the elements right inside it are those right inside this
element, if it has the name. -/
theorem texts_of_child {name : String} (plain : name ≠ "projectreference") (forest : List Xml.Node)
    (free : WithoutReference (placedAll (name :: "projectreference" :: around) forest)) :
    (placedAll (name :: "projectreference" :: around) forest).filterMap
        (·.textIn? "projectreference" inner) =
      if name = inner then forest.filterMap value? else [] := by
  induction forest with
  | nil => simp [placedAll]
  | cons node rest ih =>
    obtain ⟨here, later⟩ := withoutReference_append.mp free
    rw [placedAll, List.filterMap_append, ih later]
    cases node with
    | element written attributes children =>
      obtain ⟨other, below⟩ := List.forall_mem_cons.mp here
      rw [texts_element,
        texts_apart_all (elementName written :: name :: "projectreference" :: around) children other
          (by simpa using plain) below]
      rfl
    | empty written attributes =>
      rw [texts_empty]
      rfl
    | text raw =>
      by_cases same : name = inner
      · cases worth : value? (.text raw) <;> simp [placed, Placed.textIn?, same, worth]
      · simp [placed, Placed.textIn?, same]

/-- The texts of a reference are those right inside the elements right inside it. -/
theorem texts_of_reference (name attributes : List Char) (children : List Xml.Node)
    (other : inner ≠ "projectreference")
    (free : WithoutReference (placedAll ("projectreference" :: around) children)) :
    (placedAll ("projectreference" :: around) children).filterMap
        (·.textIn? "projectreference" inner) =
      textsInside inner (.element name attributes children) := by
  change _ = (children.filter (name? · = some inner)).flatMap fun child =>
    child.children.filterMap value?
  induction children with
  | nil => rfl
  | cons child rest ih =>
    obtain ⟨here, later⟩ := withoutReference_append.mp free
    rw [placedAll, List.filterMap_append, ih later, List.filter_cons]
    cases child with
    | element written attributes children =>
      obtain ⟨plain, below⟩ := List.forall_mem_cons.mp here
      have plain : elementName written ≠ "projectreference" := fun same => plain (same ▸ rfl)
      rw [texts_element, texts_of_child plain children below]
      by_cases same : elementName written = inner
      · simp [same, name?, Xml.Node.tag?, Xml.Node.children]
      · simp [same, name?, Xml.Node.tag?]
    | empty written attributes =>
      rw [texts_empty]
      by_cases same : elementName written = inner
      · simp [same, name?, Xml.Node.tag?, Xml.Node.children]
      · simp [same, name?, Xml.Node.tag?]
    | text raw =>
      simp [placed, Placed.textIn?, name?, Xml.Node.tag?, other.symm]

end Places

end Clarion.ProjectFile
