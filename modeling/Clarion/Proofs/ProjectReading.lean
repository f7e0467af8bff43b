import Clarion.Proofs.ProjectMeaning

/-! Reading a project file. The reader sees one event after the other and remembers the names of
the open elements and the open reference. Each node takes it from what it held before to that and
what the node says; so from the first event of a forest to the last it comes to what the forest
says. -/
namespace Clarion.ProjectFile

namespace Reader

/-- The reader after nodes, each read to its end. -/
def after (reader : Reader) (places : List Placed) : Reader :=
  { reader with
    file := reader.file.merge (meaning places)
    reference := reader.reference.map (withTexts · places) }

variable {reader : Reader} {name attributes : List Char} {children : List Xml.Node}

@[simp] theorem after_nil : reader.after [] = reader := by
  cases reader
  simp [after]

theorem after_append (front back : List Placed) :
    (reader.after front).after back = reader.after (front ++ back) := by
  simp [after, merge_assoc, meaning_append, withTexts_append, Function.comp_def]

@[simp] theorem after_elements (places : List Placed) :
    (reader.after places).elements = reader.elements := rfl

/-- What is made of places: the first fault, or else the result. -/
def outcome (places : List Placed) (result : Reader) : Except MarkupFault Reader :=
  match places.findSome? Placed.fault? with
  | some fault => .error fault
  | none => .ok result

theorem outcome_bind (front back : List Placed) {middle result : Reader}
    {next : Reader → Except MarkupFault Reader} (later : next middle = outcome back result) :
    outcome front middle >>= next = outcome (front ++ back) result := by
  unfold outcome at later ⊢
  rw [List.findSome?_append]
  cases front.findSome? Placed.fault? with
  | some fault => rfl
  | none => exact later

theorem eq_of_outcome {places : List Placed} {result final : Reader}
    (read : outcome places result = .ok final) : result = final := by
  unfold outcome at read
  split at read
  · cases read
  · exact Except.ok.inj read

/-! ### Texts -/

theorem setOnce_eq (property : Option String) (value : String) :
    setOnce property value = property.or ([value].find? (· ≠ "")) := by
  cases property <;> by_cases empty : value = "" <;> simp [setOnce, empty]

/-- A text adds what it says at its place. -/
theorem onText_eq {raw : List Char} {value : String} (read : value? (.text raw) = some value) :
    reader.onText value = reader.after [⟨reader.elements, .text raw⟩] := by
  obtain ⟨file, elements, reference⟩ := reader
  have noItem (inner : String) : [⟨elements, .text raw⟩].filterMap (Placed.item? inner) = [] :=
    List.filterMap_cons_none Placed.item?_text
  have noReference : [⟨elements, .text raw⟩].filterMap Placed.reference? = [] :=
    List.filterMap_cons_none Placed.reference?_text
  simp only [after, merge, meaning, withTexts, Placed.texts_text read, noItem, noReference]
  rcases elements with _ | ⟨current, _ | ⟨outer, elements⟩⟩
  · simp [onText]
  · simp [onText]
  · by_cases group : outer = "propertygroup"
    · subst group
      simp only [onText]
      split
      all_goals simp_all [setOnce_eq]
    · by_cases target : outer = "projectreference"
      · subst target
        simp only [onText]
        cases reference
        all_goals split
        all_goals simp_all
      · simp [onText, group, target]

theorem step_text (raw : List Char) :
    reader.step (.text raw) =
      outcome [⟨reader.elements, .text raw⟩] (reader.after [⟨reader.elements, .text raw⟩]) := by
  cases resolved : Xml.resolve? raw with
  | none => simp [step, outcome, Placed.fault?, resolved]
  | some value =>
    have read : value? (.text raw) = some (String.ofList (Text.trimChars value)) := by
      rw [value?, resolved, Option.map_some]
    simp [step, resolved, outcome, Placed.fault?, onText_eq read]

/-! ### Starts -/

/-- An element has started: what it is as an item is taken down, and it is open unless it ends
where it starts. -/
def started (reader : Reader) (name attributes : List Char) (isEmpty : Bool) : Reader :=
  let listed :=
    if reader.elements.head? = some "itemgroup" then
      reader.addItem (elementName name) (includeOrEmpty attributes) isEmpty
    else reader
  if isEmpty then listed else { listed with elements := elementName name :: listed.elements }

theorem onStart_eq (node : Xml.Node)
    (tagged : node.tag? = some (name, attributes)) (isEmpty : Bool) :
    reader.onStart name attributes isEmpty =
      outcome [⟨reader.elements, node⟩] (reader.started name attributes isEmpty) := by
  have fault : Placed.fault? ⟨reader.elements, node⟩ =
      if reader.elements.head? = some "itemgroup" then includeFault? attributes else none := by
    cases node <;> cases tagged <;> rfl
  rw [outcome, List.findSome?_singleton, fault]
  by_cases inside : reader.elements.head? = some "itemgroup"
  · cases read : includeValue attributes with
    | error fault => simp [onStart, inside, includeFault?, read]
    | ok target =>
      have worth : includeOrEmpty attributes = target.getD "" := by
        rw [includeOrEmpty, read]
        cases target <;> rfl
      cases isEmpty <;> simp [onStart, inside, includeFault?, read, started, worth]
  · cases isEmpty <;> simp [onStart, inside, started] <;> rfl

/-- An item that is no open reference is added as it stands. -/
theorem addItem_eq (node : Xml.Node) {isEmpty : Bool}
    (tagged : node.tag? = some (name, attributes))
    (inside : reader.elements.head? = some "itemgroup")
    (whole : elementName name = "projectreference" → isEmpty ∧ node.children = []) :
    reader.addItem (elementName name) (includeOrEmpty attributes) isEmpty =
      reader.after [⟨reader.elements, node⟩] := by
  have item (inner : String) : Placed.item? inner ⟨reader.elements, node⟩ =
      if elementName name = inner then some (includeOrEmpty attributes) else none := by
    simp [Placed.item?, inside, name?, tagged]
  obtain ⟨file, elements, reference⟩ := reader
  generalize elementName name = called at *
  unfold addItem
  dsimp only at *
  split <;> simp_all [after, merge, meaning, withTexts, Placed.textIn?_of_tag tagged,
    Placed.reference?, textsInside]

/-- Outside a group of items an element has nothing to it. -/
theorem after_of_outside {node : Xml.Node}
    (tagged : node.tag? = some (name, attributes))
    (outside : reader.elements.head? ≠ some "itemgroup") :
    reader.after [⟨reader.elements, node⟩] = reader := by
  have item (inner : String) : Placed.item? inner ⟨reader.elements, node⟩ = none := by
    rw [Placed.item?, if_neg fun isItem => outside isItem.1]
  have reference : Placed.reference? ⟨reader.elements, node⟩ = none := by
    rw [Placed.reference?, item, Option.map_none]
  cases reader
  simp [after, merge, meaning, withTexts, Placed.textIn?_of_tag tagged, item, reference]

theorem started_empty (name attributes : List Char) :
    reader.started name attributes true =
      reader.after [⟨reader.elements, .empty name attributes⟩] := by
  rw [started, if_pos rfl]
  split
  next item => exact addItem_eq (.empty name attributes) rfl item fun _ => ⟨rfl, rfl⟩
  next outside => exact (after_of_outside rfl outside).symm

/-- An element other than a reference in a group of items has started. -/
theorem started_plain (children : List Xml.Node)
    (plain : ¬(reader.elements.head? = some "itemgroup" ∧
      elementName name = "projectreference")) :
    reader.started name attributes false =
      { reader.after [⟨reader.elements, .element name attributes children⟩] with
        elements := elementName name :: reader.elements } := by
  rw [started, if_neg Bool.false_ne_true]
  split
  next item =>
    rw [addItem_eq (.element name attributes children) rfl item
      fun reference => absurd ⟨item, reference⟩ plain]
    rfl
  next outside => rw [after_of_outside rfl outside]

@[simp] theorem addItem_elements (name target : String) (isEmpty : Bool) :
    (reader.addItem name target isEmpty).elements = reader.elements := by
  unfold addItem
  dsimp only
  split
  case h_5 => split <;> rfl
  all_goals rfl

theorem started_elements (name attributes : List Char) :
    (reader.started name attributes false).elements = elementName name :: reader.elements := by
  rw [started, if_neg Bool.false_ne_true]
  split
  · rw [addItem_elements]
  · rfl

/-- A reference in a group of items has started. -/
theorem started_reference (item : reader.elements.head? = some "itemgroup")
    (reference : elementName name = "projectreference") :
    reader.started name attributes false =
      { reader with
        elements := "projectreference" :: reader.elements
        reference := some { target := includeOrEmpty attributes } } := by
  rw [started, if_pos item, reference]
  rfl

/-- An open reference is one of the open elements. -/
def Inside (reader : Reader) : Prop :=
  reader.reference.isSome → "projectreference" ∈ reader.elements

theorem Inside.after (inside : reader.Inside) (places : List Placed) :
    (reader.after places).Inside := fun isOpen => inside (by simpa [Reader.after] using isOpen)

theorem Inside.started (inside : reader.Inside) (name attributes : List Char) :
    (reader.started name attributes false).Inside := by
  by_cases item : reader.elements.head? = some "itemgroup" ∧ elementName name = "projectreference"
  · rw [started_reference item.1 item.2]
    exact fun _ => List.mem_cons_self
  · rw [started_plain [] item]
    exact fun isOpen => List.mem_cons_of_mem _ (inside.after _ isOpen)

/-! ### Ends -/

@[simp] theorem onEnd_elements : reader.onEnd.elements = reader.elements.tail := by
  unfold onEnd
  dsimp only
  split <;> rfl

theorem onEnd_of_other (other : reader.elements.head? ≠ some "projectreference") :
    reader.onEnd = { reader with elements := reader.elements.tail } := by
  unfold onEnd
  split
  · exact absurd ‹_› other
  · rfl

theorem onEnd_of_none (none : reader.reference = none) :
    reader.onEnd = { reader with elements := reader.elements.tail } := by
  unfold onEnd
  split
  · cases none.symm.trans ‹_›
  · rfl

/-- An element that counts like any other place has been read with all that stands inside it. -/
theorem onEnd_plain
    (plain : ¬(reader.elements.head? = some "itemgroup" ∧ elementName name = "projectreference"))
    (idle : elementName name = "projectreference" → reader.reference = none) :
    ((reader.started name attributes false).after
        (placedAll (elementName name :: reader.elements) children)).onEnd =
      reader.after (placed reader.elements (.element name attributes children)) := by
  have parts : reader.after (placed reader.elements (.element name attributes children)) =
      (reader.after [⟨reader.elements, .element name attributes children⟩]).after
        (placedAll (elementName name :: reader.elements) children) := by
    rw [after_append]
    rfl
  rw [started_plain children plain, parts]
  by_cases reference : elementName name = "projectreference"
  · rw [onEnd_of_none (by simp [after, idle reference])]
    rfl
  · rw [onEnd_of_other (by simpa using reference)]
    rfl

/-- A reference in a group of items has been read with all that stands inside it. -/
theorem onEnd_reference (item : reader.elements.head? = some "itemgroup")
    (reference : elementName name = "projectreference") (closed : reader.reference = none)
    (free : WithoutReference (placedAll ("projectreference" :: reader.elements) children)) :
    ((reader.started name attributes false).after
        (placedAll (elementName name :: reader.elements) children)).onEnd =
      reader.after (placed reader.elements (.element name attributes children)) := by
  rw [started_reference item reference, placed, reference]
  have tagged : (Xml.Node.element name attributes children).tag? = some (name, attributes) := rfl
  have listed (inner : String) :
      Placed.item? inner ⟨reader.elements, .element name attributes children⟩ =
        if inner = "projectreference" then some (includeOrEmpty attributes) else none := by
    simp [Placed.item?, item, name?, tagged, reference, eq_comm]
  have texts {inner : String} (other : inner ≠ "projectreference") :=
    texts_of_reference name attributes children other free
  have record : Placed.reference? ⟨reader.elements, .element name attributes children⟩ =
      some (withTexts { target := includeOrEmpty attributes }
        (placedAll ("projectreference" :: reader.elements) children)) := by
    rw [Placed.reference?, listed, if_pos rfl, Option.map_some, withTexts, texts (by decide),
      texts (by decide), List.getLast?_map, Option.or_none]
    cases (textsInside "project" (.element name attributes children)).getLast? <;> rfl
  obtain ⟨file, elements, slot⟩ := reader
  dsimp only at *
  simp [after, onEnd, merge, meaning, withTexts, Placed.textIn?_of_tag tagged, listed, record, closed,
    free.reference?_eq_nil]

/-- An element has been read with all that stands inside it. -/
theorem onEnd_started (inside : reader.Inside)
    (apart : ReferencesApart (placed reader.elements (.element name attributes children))) :
    ((reader.started name attributes false).after
        (placedAll (elementName name :: reader.elements) children)).onEnd =
      reader.after (placed reader.elements (.element name attributes children)) := by
  obtain ⟨alone, below⟩ := List.forall_mem_cons.mp apart
  have idle (reference : elementName name = "projectreference") : reader.reference = none :=
    Option.not_isSome_iff_eq_none.mp fun isOpen =>
      alone (congrArg some reference) (inside isOpen)
  by_cases item : reader.elements.head? = some "itemgroup" ∧ elementName name = "projectreference"
  · obtain ⟨item, reference⟩ := item
    rw [reference] at below
    exact onEnd_reference item reference (idle reference)
      (withoutReference_of_apart List.mem_cons_self below)
  · exact onEnd_plain item idle

/-! ### Runs -/

theorem run_cons (event : Xml.Event) (events : List Xml.Event) :
    reader.run (event :: events) = reader.step event >>= (run · events) := rfl

theorem run_append (front back : List Xml.Event) :
    reader.run (front ++ back) = reader.run front >>= (run · back) :=
  List.foldlM_append

theorem run_singleton (event : Xml.Event) : reader.run [event] = reader.step event := by
  rw [run_cons]
  exact bind_pure _

mutual

/-- A node in a document. -/
theorem run_events (reader : Reader) (node : Xml.Node) (inside : reader.Inside)
    (apart : ReferencesApart (placed reader.elements node)) :
    reader.run node.events =
      outcome (placed reader.elements node) (reader.after (placed reader.elements node)) :=
  match node with
  | .element name attributes children => by
    obtain ⟨-, below⟩ := List.forall_mem_cons.mp apart
    rw [Xml.Node.events, run_cons, step,
      onStart_eq (.element name attributes children) rfl false]
    refine outcome_bind [_] _ ?_
    rw [← started_elements name attributes] at below
    rw [run_append, run_eventsAll _ children (inside.started name attributes) below,
      started_elements]
    refine Eq.trans (outcome_bind _ [] (run_singleton .closing)) ?_
    rw [List.append_nil, onEnd_started inside apart]
  | .empty name attributes => by
    rw [Xml.Node.events, run_singleton, step, onStart_eq (.empty name attributes) rfl true,
      started_empty]
    rfl
  | .text raw => by
    rw [Xml.Node.events, run_singleton, step_text]
    rfl

theorem run_eventsAll (reader : Reader) (forest : List Xml.Node) (inside : reader.Inside)
    (apart : ReferencesApart (placedAll reader.elements forest)) :
    reader.run (Xml.Node.eventsAll forest) =
      outcome (placedAll reader.elements forest)
        (reader.after (placedAll reader.elements forest)) :=
  match forest with
  | [] => by
    rw [Xml.Node.eventsAll, placedAll, after_nil]
    rfl
  | node :: rest => by
    obtain ⟨here, later⟩ := List.forall_mem_append.mp apart
    rw [Xml.Node.eventsAll, run_append, run_events reader node inside here, placedAll]
    refine outcome_bind _ _ ?_
    rw [run_eventsAll _ rest (inside.after _) later, after_append, after_elements]

end

/-! ### Depth -/

/-- One event opens and closes as many elements for the reader as in the document. -/
theorem depthAfter_step {event : Xml.Event} {events : List Xml.Event} {last : Nat} {next : Reader}
    (balanced : Xml.depthAfter reader.elements.length (event :: events) = some last)
    (stepped : reader.step event = .ok next) :
    Xml.depthAfter next.elements.length events = some last := by
  cases event with
  | opening name attributes =>
    rw [step, onStart_eq (.element name attributes []) rfl] at stepped
    rw [← eq_of_outcome stepped, started_elements, List.length_cons]
    exact balanced
  | empty name attributes =>
    rw [step, onStart_eq (.empty name attributes) rfl, started_empty] at stepped
    rw [← eq_of_outcome stepped, after_elements]
    rwa [Xml.depthAfter] at balanced
  | closing =>
    cases Except.ok.inj stepped
    rw [onEnd_elements, List.length_tail]
    cases levels : reader.elements.length with
    | zero =>
      rw [levels] at balanced
      cases balanced
    | succ depth =>
      rw [levels] at balanced
      exact balanced
  | text raw =>
    rw [step_text] at stepped
    rw [← eq_of_outcome stepped, after_elements]
    rwa [Xml.depthAfter] at balanced

/-- As many elements are open for the reader as in the document. -/
theorem length_elements_of_run (reader : Reader) {events : List Xml.Event} {last : Nat}
    {final : Reader}
    (balanced : Xml.depthAfter reader.elements.length events = some last)
    (ran : reader.run events = .ok final) : final.elements.length = last := by
  induction events generalizing reader with
  | nil =>
    cases ran
    rw [Xml.depthAfter] at balanced
    exact Option.some.inj balanced
  | cons event events ih =>
    rw [run_cons] at ran
    cases stepped : reader.step event with
    | error fault =>
      rw [stepped] at ran
      cases ran
    | ok next =>
      rw [stepped] at ran
      exact ih next (depthAfter_step balanced stepped) ran

end Reader

/-- The reader of the events of a forest stops at the first node that cannot be read; if there is
none, it has closed all elements and holds what the forest says. -/
theorem run_eventsAll_eq_meaning (forest : List Xml.Node)
    (apart : ReferencesApart (placedAll [] forest)) :
    Reader.run {} (Xml.Node.eventsAll forest) =
      match (placedAll [] forest).findSome? Placed.fault? with
      | some fault => .error fault
      | none => .ok { file := meaning (placedAll [] forest), elements := [], reference := none } := by
  have read := Reader.run_eventsAll {} forest (fun isOpen => nomatch isOpen) apart
  rw [read, Reader.outcome, Reader.after, empty_merge, Option.map_none]

/-- Items inside items, a group inside a group, both forms of elements, and texts in several
parts. -/
def nestedItems : List Xml.Node := [
  .element "Project".toList [] [
    .element "PropertyGroup".toList [] [
      .element "OutputName".toList [] [.text "first".toList, .text "later".toList],
      .element "PropertyGroup".toList [] [.element "Model".toList [] [.text "Dll".toList]]],
    .element "m:ItemGroup".toList [] [
      .element "Compile".toList "Include=\"a.clw\"".toList [
        .element "Model".toList [] [.text "Exe".toList],
        .element "ItemGroup".toList [] [.empty "NONE".toList "Include='a.red'".toList]],
      .element "ProjectReference".toList "include=\"b.cwproj\"".toList [
        .element "Name".toList [] [.text "old".toList, .text "b".toList],
        .element "Extra".toList [] [.element "Name".toList [] [.text "inner".toList]]],
      .empty "ProjectReference".toList [],
      .empty "Compile".toList "Other=\"c.clw\"".toList]]]

theorem nestedItems_are_read : ReferencesApart (placedAll [] nestedItems) ∧
    Reader.run {} (Xml.Node.eventsAll nestedItems) = .ok {
      file := {
        outputName := some "first"
        model := some "Dll"
        compile := ["a.clw", ""]
        projectReferences := [{ target := "b.cwproj", name := some "b" }, { target := "" }]
        others := ["a.red"] } } :=
  ⟨by decide, (run_eventsAll_eq_meaning nestedItems (by decide)).trans (by decide +kernel)⟩

theorem parse_eq_ok {content : String} {file : ProjectFile} (parsed : parse content = .ok file) :
    ∃ reader, Reader.run {} (Xml.events content).1 = .ok reader ∧ (Xml.events content).2 = false ∧
      reader.elements = [] ∧ reader.file = file := by
  unfold parse at parsed
  dsimp only at parsed
  cases ran : Reader.run {} (Xml.events content).1 with
  | error fault =>
    rw [ran] at parsed
    cases parsed
  | ok reader =>
    rw [ran] at parsed
    cases faulty : (Xml.events content).2 with
    | true =>
      rw [faulty] at parsed
      cases parsed
    | false =>
      rw [faulty] at parsed
      change (if reader.elements.isEmpty then Except.ok reader.file
        else .error MarkupFault.unclosed) = .ok file at parsed
      split at parsed
      next closed => exact ⟨reader, rfl, rfl, List.isEmpty_iff.mp closed, Except.ok.inj parsed⟩
      next => cases parsed

/-- The events of a file that is read are those of a forest, and unless a reference stands inside
another the file says what the forest does. -/
theorem exists_forest_of_parse {content : String} {file : ProjectFile}
    (parsed : parse content = .ok file) :
    ∃ forest, Xml.events content = (Xml.Node.eventsAll forest, false) ∧
      (ReferencesApart (placedAll [] forest) → file = meaning (placedAll [] forest)) := by
  obtain ⟨reader, ran, sound, closed, rfl⟩ := parse_eq_ok parsed
  obtain ⟨last, balanced⟩ := Xml.depthAfter_events content
  obtain rfl : reader.elements.length = last := Reader.length_elements_of_run {} balanced ran
  rw [closed] at balanced
  obtain ⟨forest, events⟩ := Xml.exists_forest balanced
  refine ⟨forest, Prod.ext events sound, fun apart => ?_⟩
  rw [events, Reader.run_eventsAll {} forest (fun isOpen => nomatch isOpen) apart] at ran
  rw [← Reader.eq_of_outcome ran, Reader.after, empty_merge]

end Clarion.ProjectFile
