import Clarion.Proofs.Checked.Display

/-! The symbols of declarations, made from a token of the document with every access checked. -/
namespace Clarion.Checked

open Outline

variable {tokens : Tokens} {index : Nat} {token : Token}

/-- The symbol of a key or index. -/
def keyInfo (tokens : Tokens) (index : Nat) : Checked Info := do
  let label ← lineLabel? tokens index
  let shown ← keyDisplay tokens index (label.map LineLabel.text)
  let range ← statementRange tokens index
  let selection ← selectionRange tokens index
  return { name := shown.1, detail := shown.2, kind := .key, range, selection
           traits := { label := label.map LineLabel.text } }

theorem keyInfo_ok (found : tokens[index]? = some token) :
    keyInfo tokens index = .ok (Outline.keyInfo tokens index token) := by
  simp only [keyInfo, lineLabel?_ok, keyDisplay_ok, statementRange_ok found,
    selectionRange_ok found, ok_bind, pure_eq]
  rfl

/-- The symbol of a projected field list. -/
def projectInfo (tokens : Tokens) (index : Nat) : Checked Info := do
  let name ← projectDisplay tokens index
  let range ← statementRange tokens index
  let token ← get tokens index
  return { name, detail := "", kind := .field, range, selection := tokenRange token }

theorem projectInfo_ok (found : tokens[index]? = some token) :
    projectInfo tokens index = .ok (Outline.projectInfo tokens index token) := by
  simp only [projectInfo, projectDisplay_ok, statementRange_ok found, get_ok found, ok_bind, pure_eq]
  rfl

/-- The symbol of a window control. -/
def controlInfo (tokens : Tokens) (index : Nat) : Checked Info := do
  let shown ← controlDisplay tokens index
  let range ← statementRange tokens index
  let token ← get tokens index
  return { name := shown.1, detail := shown.2, kind := .control, range
           selection := tokenRange token }

theorem controlInfo_ok (found : tokens[index]? = some token) :
    controlInfo tokens index = .ok (Outline.controlInfo tokens index token) := by
  simp only [controlInfo, controlDisplay_ok, statementRange_ok found, get_ok found, ok_bind, pure_eq]
  rfl

/-- The symbol of a record of a file. -/
def recordInfo (tokens : Tokens) (index : Nat) : Checked Info := do
  let token ← get tokens index
  let header ← header tokens index
  let label ← labelOf tokens index
  let range ← blockRange tokens index token.finishesAt
  let selection ← selectionRange tokens index
  return { name := label.getD header.unlabeledName, detail := header.signature
           kind := .structureDecl, range, selection
           traits := { finishesAt := token.finishesAt, fieldPrefix := header.pre, label } }

theorem recordInfo_ok (found : tokens[index]? = some token) :
    recordInfo tokens index = .ok (Outline.recordInfo tokens index token) := by
  simp only [recordInfo, get_ok found, header_ok, labelOf_ok found, blockRange_ok found,
    selectionRange_ok found, ok_bind, pure_eq]
  rfl

/-- The symbol of a memo or blob of a file. -/
def memoInfo (tokens : Tokens) (index : Nat) : Checked Info := do
  let label ← labelOf tokens index
  let text ← tailDisplay tokens index
  let range ← statementRange tokens index
  let selection ← selectionRange tokens index
  return { name := label.elim text (· ++ "  " ++ text), detail := text, kind := .field, range
           selection
           traits := { dataName := label, dataType := some text, isPartOfStructure := true } }

theorem memoInfo_ok (found : tokens[index]? = some token) :
    memoInfo tokens index = .ok (Outline.memoInfo tokens index token) := by
  simp only [memoInfo, labelOf_ok found, tailDisplay_ok found, statementRange_ok found,
    selectionRange_ok found, ok_bind, pure_eq]
  rfl

/-- The symbol of a join of a view. -/
def joinInfo (tokens : Tokens) (index : Nat) : Checked Info := do
  let token ← get tokens index
  let header ← header tokens index
  let range ← blockRange tokens index token.finishesAt
  return { name := header.unlabeledName, detail := header.signature, kind := .structureDecl, range
           selection := tokenRange token
           traits := { finishesAt := token.finishesAt } }

theorem joinInfo_ok (found : tokens[index]? = some token) :
    joinInfo tokens index = .ok (Outline.joinInfo tokens index token) := by
  simp only [joinInfo, get_ok found, header_ok, blockRange_ok found, ok_bind, pure_eq]
  rfl

/-- The symbol of a structure. -/
def structureInfo (tokens : Tokens) (index : Nat) : Checked Info := do
  let token ← get tokens index
  let header ← header tokens index
  let label ← labelOf tokens index
  let range ← blockRange tokens index token.finishesAt
  let selection ← selectionRange tokens index
  let kind := Kind.ofStructureWord token.value
  return { name := label.getD header.unlabeledName, detail := header.signature, kind, range
           selection
           traits := {
             finishesAt := token.finishesAt
             fieldPrefix := header.pre
             label
             isInterface := kind == .interfaceDecl } }

theorem structureInfo_ok (found : tokens[index]? = some token) :
    structureInfo tokens index = .ok (Outline.structureInfo tokens index token) := by
  simp only [structureInfo, get_ok found, header_ok, labelOf_ok found, blockRange_ok found,
    selectionRange_ok found, ok_bind, pure_eq]
  rfl

/-- The name a procedure token introduces. -/
def procedureName (tokens : Tokens) (index : Nat) : Checked String := do
  let token ← get tokens index
  let label ← labelOf tokens index
  return label.getD token.value

theorem procedureName_ok (found : tokens[index]? = some token) :
    procedureName tokens index = .ok (Outline.procedureName tokens index token) := by
  simp only [procedureName, get_ok found, labelOf_ok found, ok_bind, pure_eq]
  rfl

/-- The symbol of a procedure with a body. -/
def procedureInfo (tokens : Tokens) (index : Nat) (name : String) (isGlobal : Bool) :
    Checked Info := do
  let token ← get tokens index
  let params ← paramsDisplay tokens index
  let detail ← tailDisplay tokens index
  let range ← blockRange tokens index token.finishesAt
  let selection ← selectionRange tokens index
  return { name := name ++ " " ++ params, detail, kind := .procedure, range, selection
           traits := {
             isGlobalProcedure := isGlobal
             finishesAt := token.finishesAt
             label := some name } }

theorem procedureInfo_ok (found : tokens[index]? = some token) (name : String) (isGlobal : Bool) :
    procedureInfo tokens index name isGlobal =
      .ok (Outline.procedureInfo tokens index token name isGlobal) := by
  simp only [procedureInfo, get_ok found, paramsDisplay_ok, tailDisplay_ok found,
    blockRange_ok found, selectionRange_ok found, ok_bind, pure_eq]
  rfl

/-- The symbol of a method with a body. -/
def methodInfo (tokens : Tokens) (index : Nat) (className methodName detail : String) :
    Checked Info := do
  let token ← get tokens index
  let params ← paramsDisplay tokens index
  let range ← blockRange tokens index token.finishesAt
  let selection ← selectionRange tokens index
  return { name := methodName ++ " " ++ params, detail, kind := .method, range, selection
           traits := {
             isMethodImplementation := true
             finishesAt := token.finishesAt
             label := some (className ++ "." ++ methodName) } }

theorem methodInfo_ok (found : tokens[index]? = some token) (className methodName detail : String) :
    methodInfo tokens index className methodName detail =
      .ok (Outline.methodInfo tokens index token className methodName detail) := by
  simp only [methodInfo, get_ok found, paramsDisplay_ok, blockRange_ok found,
    selectionRange_ok found, ok_bind, pure_eq]
  rfl

/-- The symbol of a class that has implementations and no declaration. -/
def undeclaredClassInfo (tokens : Tokens) (index : Nat) (className : String) : Checked Info := do
  let range ← blockRange tokens index none
  let selection ← selectionRange tokens index
  return { name := className ++ Arena.implementationSuffix, detail := "", kind := .classDecl, range
           selection
           traits := { label := some className } }

theorem undeclaredClassInfo_ok (found : tokens[index]? = some token) (className : String) :
    undeclaredClassInfo tokens index className =
      .ok (Outline.undeclaredClassInfo tokens index token className) := by
  simp only [undeclaredClassInfo, blockRange_ok found, selectionRange_ok found, ok_bind, pure_eq]
  rfl

/-- The symbol of a prototype. -/
def prototypeInfo (tokens : Tokens) (index : Nat) (name : String) (kind : Outline.Kind)
    (isMethod isMap : Bool) : Checked Info := do
  let detail ← tailDisplay tokens index
  let range ← statementRange tokens index
  let selection ← selectionRange tokens index
  return { name, detail, kind, range, selection
           traits := { isMethodDeclaration := isMethod, isMapProcedure := isMap, label := some name } }

theorem prototypeInfo_ok (found : tokens[index]? = some token) (name : String)
    (kind : Outline.Kind) (isMethod isMap : Bool) :
    prototypeInfo tokens index name kind isMethod isMap =
      .ok (Outline.prototypeInfo tokens index token name kind isMethod isMap) := by
  simp only [prototypeInfo, tailDisplay_ok found, statementRange_ok found, selectionRange_ok found,
    ok_bind, pure_eq]
  rfl

/-- The name of a routine: its label, the label token right before it, or the word itself. -/
def routineName (tokens : Tokens) (index : Nat) : Checked String := do
  let token ← get tokens index
  match ← labelOf tokens index with
  | some label => return label
  | none =>
    match index with
    | 0 => return token.value
    | previous + 1 => do
      let before ← get tokens previous
      return if before.kind == .label then before.value else token.value

theorem routineName_ok (found : tokens[index]? = some token) :
    routineName tokens index = .ok (State.routineName tokens index token) := by
  simp only [routineName, State.routineName, get_ok found, labelOf_ok found, ok_bind, pure_eq]
  cases Outline.labelOf tokens index token with
  | some label => rfl
  | none =>
    cases index with
    | zero => rfl
    | succ previous =>
      have bound := Nat.lt_of_succ_lt (List.getElem?_eq_some_iff.mp found).1
      have before := List.getElem?_eq_getElem bound
      dsimp only
      rw [get_ok before, ok_bind, before]
      cases isLabel : tokens[previous].kind == .label <;> simp [Option.filter, isLabel]

/-- The symbol of a routine. -/
def routineInfo (tokens : Tokens) (index : Nat) (name : String) : Checked Info := do
  let token ← get tokens index
  let range ← blockRange tokens index token.finishesAt
  let selection ← selectionRange tokens index
  return { name, detail := "ROUTINE", kind := .routine, range, selection
           traits := {
             isSpecialRoutine := Text.contains name "::"
             finishesAt := token.finishesAt
             label := some name } }

theorem routineInfo_ok (found : tokens[index]? = some token) (name : String) :
    routineInfo tokens index name = .ok (Outline.routineInfo tokens index token name) := by
  simp only [routineInfo, get_ok found, blockRange_ok found, selectionRange_ok found, ok_bind,
    pure_eq]
  rfl

/-! ### Data declarations -/

/-- A token that may end the label of a data declaration. -/
def endsLabel (token : Token) : Bool :=
  token.kind == .label || token.kind == .structurePrefix || token.kind == .variableName

/-- The label that ends in the token before `index`, put together when it is split at the colon. -/
def labelBefore (tokens : Tokens) (index : Nat) (token last : Token) : Checked DataLabel := do
  let plain : DataLabel := ⟨last.value, ← minus index 1, last⟩
  if last.kind == .structurePrefix && last.value.toList.head? == some ':' && 2 ≤ index then do
    let place ← minus index 2
    let head ← get tokens place
    return if head.line == token.line && head.kind == .label then
        ⟨head.value ++ last.value, place, last⟩
      else plain
  else return plain

/-- The label of the declaration whose type stands at `index`. One that a procedure is part of is
no label. -/
def dataLabel? (tokens : Tokens) (index : Nat) : Checked (Option DataLabel) :=
  if index = 0 then .ok none
  else do
    let token ← get tokens index
    let last ← get tokens (← minus index 1)
    if last.line != token.line || !endsLabel last then return none
    else do
      let label ← labelBefore tokens index token last
      if tokens.firstOnLine? token.line == some label.index then do
        let named ← slice tokens label.index index
        return if named.any (·.kind == .procedure) then none else some label
      else return none

/-- The label of a declaration, once it is known which tokens it consists of. -/
def labelIfFirst (tokens : Tokens) (token last : Token) (label : DataLabel) : Option DataLabel :=
  if last.line != token.line then none
  else if tokens.firstOnLine? token.line == some label.index then some label else none

/-- The label right before an index is read off the tokens before it, and no procedure stands
between its start and the index. -/
theorem labelBefore_ok {previous : Nat} {last : Token} (before : tokens[previous]? = some last)
    (ends : endsLabel last) (token : Token) :
    ∃ label, labelBefore tokens (previous + 1) token last = .ok label ∧ label.index ≤ previous ∧
      (∀ other ∈ tokens.slice label.index (previous + 1), other.kind ≠ .procedure) ∧
      Outline.dataLabel? tokens (previous + 1) token = labelIfFirst tokens token last label := by
  have noProcedure : last.kind ≠ .procedure := by
    intro word
    simp [endsLabel, word] at ends
  have alone : ∀ other ∈ tokens.slice previous (previous + 1), other.kind ≠ .procedure := by
    rw [slice_succ before (Nat.le_refl _)]
    simpa [Tokens.slice] using noProcedure
  unfold labelBefore Outline.dataLabel? labelIfFirst
  simp only [minus_ok (Nat.succ_le_succ (Nat.zero_le previous)), Nat.add_sub_cancel, ok_bind, before,
    Option.bind_eq_bind, Option.bind_some]
  cases word : last.kind with
  | label => exact ⟨_, rfl, Nat.le_refl _, alone, by simp⟩
  | variableName => exact ⟨_, rfl, Nat.le_refl _, alone, by simp⟩
  | structurePrefix =>
    cases previous with
    | zero => exact ⟨⟨last.value, 0, last⟩, by simp, Nat.le_refl _, alone, by simp⟩
    | succ place =>
      have bound := Nat.lt_of_succ_lt (List.getElem?_eq_some_iff.mp before).1
      have starts := List.getElem?_eq_getElem bound
      generalize tokens[place] = head at starts
      have earlier : minus (place + 1 + 1) 2 = .ok place := minus_ok (by omega)
      by_cases joined : last.value.toList.head? = some ':' ∧ head.line = token.line ∧
          head.kind = .label
      · obtain ⟨colon, sameLine, isLabel⟩ := joined
        refine ⟨⟨head.value ++ last.value, place, last⟩, ?_, Nat.le_succ _, ?_, ?_⟩
        · simp [colon, earlier, get_ok starts, sameLine, isLabel]
        · rw [slice_succ before (Nat.le_succ _), slice_succ starts (Nat.le_refl _)]
          simp [Tokens.slice, noProcedure, isLabel]
        · simp [colon, starts, sameLine, isLabel]
      · refine ⟨⟨last.value, place + 1, last⟩, ?_, Nat.le_refl _, alone, ?_⟩
        · by_cases colon : last.value.toList.head? = some ':'
          · have apart : ¬(head.line = token.line ∧ head.kind = .label) := fun both =>
              joined ⟨colon, both⟩
            simp [colon, earlier, get_ok starts, apart]
          · simp [colon]
        · simp [starts, and_assoc, joined]
  | _ => simp [endsLabel, word] at ends

theorem dataLabel?_none {previous : Nat} {last : Token} (before : tokens[previous]? = some last)
    (ends : ¬endsLabel last) : Outline.dataLabel? tokens (previous + 1) token = none := by
  unfold Outline.dataLabel?
  simp only [Nat.add_sub_cancel, before, Option.bind_eq_bind, Option.bind_some]
  cases word : last.kind <;> simp_all [endsLabel]

theorem dataLabel?_ok (found : tokens[index]? = some token) :
    dataLabel? tokens index = .ok (Outline.dataLabel? tokens index token) := by
  cases index with
  | zero => rfl
  | succ previous =>
    have bound := (List.getElem?_eq_some_iff.mp found).1
    have before := List.getElem?_eq_getElem (Nat.lt_of_succ_lt bound)
    generalize tokens[previous] = last at before
    rw [dataLabel?, if_neg (Nat.succ_ne_zero _), get_ok found, ok_bind, minus_ok (by omega), ok_bind]
    simp only [Nat.add_sub_cancel]
    rw [get_ok before, ok_bind]
    by_cases ends : endsLabel last
    · obtain ⟨label, shown, order, clean, same⟩ := labelBefore_ok before ends token
      rw [same, shown, ok_bind]
      have inside : slice tokens label.index (previous + 1) =
          .ok (tokens.slice label.index (previous + 1)) :=
        slice_ok (Nat.le_succ_of_le order) (Nat.le_of_lt bound)
      unfold labelIfFirst
      cases last.line != token.line with
      | true => rfl
      | false =>
        cases tokens.firstOnLine? token.line == some label.index with
        | false => simp [ends]
        | true => simpa [ends, inside] using clean
    · simp [ends, dataLabel?_none before ends]

/-- A label of a data declaration starts before the type. -/
theorem dataLabel?_bounds {label : DataLabel} (found : tokens[index]? = some token)
    (labelled : Outline.dataLabel? tokens index token = some label) : label.index < index := by
  cases index with
  | zero => simp [Outline.dataLabel?] at labelled
  | succ previous =>
    have bound := Nat.lt_of_succ_lt (List.getElem?_eq_some_iff.mp found).1
    have before := List.getElem?_eq_getElem bound
    by_cases ends : endsLabel tokens[previous]
    · obtain ⟨other, -, order, -, same⟩ := labelBefore_ok before ends token
      rw [same, labelIfFirst] at labelled
      split at labelled
      · cases labelled
      · split at labelled
        · cases labelled
          exact Nat.lt_succ_of_le order
        · cases labelled
    · simp [dataLabel?_none before ends] at labelled

/-- The symbol of a data declaration. -/
def dataInfo (tokens : Tokens) (index : Nat) (label : DataLabel) (home : Home)
    (references : List String) : Checked Info := do
  let declaration ← slice tokens index (tokens.logicalLineEnd index)
  let parts ← splitTopLevelCommas declaration
  let dataType := (parts.head?.map Tokens.render).getD ""
  let first ← get tokens label.index
  let range ← statementRange tokens index
  return { name := label.text ++ "  " ++ dataType, detail := Tokens.render declaration
           kind := home.kind, range
           selection := ⟨⟨first.line, first.start⟩, ⟨label.last.line, label.last.stop⟩⟩
           traits := {
             dataType := some dataType
             dataName := some label.text
             isPartOfStructure := home.owner.isSome && home.kind == .field
             references } }

theorem dataInfo_ok (found : tokens[index]? = some token) {label : DataLabel}
    (labelled : Outline.dataLabel? tokens index token = some label) (home : Home)
    (references : List String) :
    dataInfo tokens index label home references =
      .ok (State.dataInfo tokens index token label home references) := by
  have bound := (List.getElem?_eq_some_iff.mp found).1
  obtain ⟨after, inside⟩ := logicalLineEnd_bounds bound
  have first := List.getElem?_eq_getElem
    (Nat.lt_trans (dataLabel?_bounds found labelled) bound)
  rw [dataInfo, slice_ok (Nat.le_of_lt after) inside]
  simp only [ok_bind, splitTopLevelCommas_ok, get_ok first, statementRange_ok found, pure_eq,
    State.dataInfo, first]
  rfl

end Clarion.Checked
