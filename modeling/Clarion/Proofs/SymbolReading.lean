import Clarion.Outline.Json
import Clarion.Proofs.RecordReading

/-! What is written for a symbol, with all that stands below it, reads back to it. Unset flags, absent
options and an empty list of references are left out, and the traits stand among the other members
of the symbol; the decoder puts back what the absence of a member stands for. -/
namespace Clarion

open Json

/-! ### Places and spans -/

/-- A place that a document of fewer than 2 ^ 32 lines and columns can have. -/
def Position.Fits (position : Position) : Prop :=
  position.line < 4294967296 ∧ position.column < 4294967296

namespace Position

/-- The fields of a place. -/
def slots : List (Slot (Option Nat × Option Nat)) := [
  ⟨"line", fun j d => return (some (← decodeNat32 j), d.2)⟩,
  ⟨"character", fun j d => return (d.1, some (← decodeNat32 j))⟩]

theorem ofJson_eq (value : Json) : ofJson value = (do
    let draft ← fillRecord slots (none, none) value
    return ⟨← required draft.1, ← required draft.2⟩) :=
  rfl

/-- The place as far as the keys are known. -/
def upTo (position : Position) (known : List String) : Option Nat × Option Nat :=
  (if "line" ∈ known then some position.line else none,
    if "character" ∈ known then some position.column else none)

variable {position : Position}

theorem members_read (fits : position.Fits) :
    ∀ member ∈ [("line", int position.line), ("character", int position.column)],
      Reads slots position.upTo member := by
  simp only [List.forall_mem_cons]
  refine ⟨.int ⟨slots[0], List.getElem_mem _, rfl, fun known => ?_⟩,
    .int ⟨slots[1], List.getElem_mem _, rfl, fun known => ?_⟩, by simp⟩
  · simp [slots, decodeNat32_int fits.1, upTo]
  · simp [slots, decodeNat32_int fits.2, upTo]

theorem readsBack (fits : position.Fits) : ReadsBack ofJson position.toJson position := by
  intro value same
  obtain ⟨known, all, filled, settled⟩ :=
    fillRecord_reordered (by decide) (by simp [keys]) (members_read fits) same
  have line : "line" ∈ known := (all _).mpr (by simp [keys])
  have column : "character" ∈ known := (all _).mpr (by simp [keys])
  change fillRecord slots (none, none) value = _ at filled
  refine ⟨?_, settled⟩
  rw [ofJson_eq, filled]
  simp [upTo, line, column, required]
  rfl

end Position

/-- Both ends are places that a document can have. -/
def Range.Fits (range : Range) : Prop :=
  range.start.Fits ∧ range.stop.Fits

namespace Range

/-- The fields of a span. -/
def slots : List (Slot (Option Position × Option Position)) := [
  ⟨"start", fun j d => return (some (← Position.ofJson j), d.2)⟩,
  ⟨"end", fun j d => return (d.1, some (← Position.ofJson j))⟩]

theorem ofJson_eq (value : Json) : ofJson value = (do
    let draft ← fillRecord slots (none, none) value
    return ⟨← required draft.1, ← required draft.2⟩) :=
  rfl

/-- The span as far as the keys are known. -/
def upTo (range : Range) (known : List String) : Option Position × Option Position :=
  (if "start" ∈ known then some range.start else none,
    if "end" ∈ known then some range.stop else none)

variable {range : Range}

theorem members_read (fits : range.Fits) :
    ∀ member ∈ [("start", range.start.toJson), ("end", range.stop.toJson)],
      Reads slots range.upTo member := by
  simp only [List.forall_mem_cons]
  refine ⟨fun other same => ?_, fun other same => ?_, by simp⟩
  · obtain ⟨read, settled⟩ := Position.readsBack fits.1 other same
    refine ⟨⟨slots[0], List.getElem_mem _, rfl, fun known => ?_⟩, settled⟩
    simp [slots, read, upTo]
  · obtain ⟨read, settled⟩ := Position.readsBack fits.2 other same
    refine ⟨⟨slots[1], List.getElem_mem _, rfl, fun known => ?_⟩, settled⟩
    simp [slots, read, upTo]

theorem readsBack (fits : range.Fits) : ReadsBack ofJson range.toJson range := by
  intro value same
  obtain ⟨known, all, filled, settled⟩ :=
    fillRecord_reordered (by decide) (by simp [keys]) (members_read fits) same
  have start : "start" ∈ known := (all _).mpr (by simp [keys])
  have stop : "end" ∈ known := (all _).mpr (by simp [keys])
  change fillRecord slots (none, none) value = _ at filled
  refine ⟨?_, settled⟩
  rw [ofJson_eq, filled]
  simp [upTo, start, stop, required]
  rfl

end Range

/-- The value without members that are no fields of a place. -/
def Position.onlyFields : Json → Json :=
  Json.onlyFields (slots.map Slot.key) id

theorem Position.ofJson_onlyFields {value : Json} (whole : value.skip = none) :
    ofJson (onlyFields value) = ofJson value := by
  rw [ofJson_eq, ofJson_eq, onlyFields, fillRecord_onlyFields id (fun _ _ _ _ => rfl) whole]

/-- The value without members that are no fields of a span, at either end of it as well. -/
def Range.onlyFields : Json → Json
  | .arr items stop => .arr (items.map Position.onlyFields) stop
  | other => Json.onlyFields (slots.map Slot.key) Position.onlyFields other

theorem Range.fill_onlyFields : ∀ slot ∈ slots, ∀ value, value.skip = none →
    slot.fill (Position.onlyFields value) = slot.fill value := by
  simp only [slots, List.forall_mem_cons]
  refine ⟨fun value whole => ?_, fun value whole => ?_, by simp⟩
  · simp only [Position.ofJson_onlyFields whole]
  · simp only [Position.ofJson_onlyFields whole]

theorem Range.ofJson_onlyFields {value : Json} (whole : value.skip = none) :
    ofJson (onlyFields value) = ofJson value := by
  rw [ofJson_eq, ofJson_eq]
  cases value with
  | arr items stop =>
    rw [onlyFields, fillRecord, fillRecord, fillItems_map fill_onlyFields (skip_arr whole)]
  | _ =>
    rw [onlyFields, fillRecord_onlyFields _ fill_onlyFields whole]
    rintro _ _ ⟨⟩

/-! ### Traits -/

namespace Outline

theorem forall_mem_setMember {α : Type} {key : String} {encode : α → Json} {option : Option α}
    {holds : String × Json → Prop} :
    (∀ member ∈ Outline.setMember key encode option, holds member) ↔
      ∀ value, option = some value → holds (key, encode value) := by
  cases option <;> simp [Outline.setMember]

theorem keys_setMember {α : Type} (key : String) (encode : α → Json) (option : Option α) :
    keys (Outline.setMember key encode option) = if option.isSome then [key] else [] := by
  cases option <;> rfl

theorem forall_mem_flagMember {key : String} {flag : Bool} {holds : String × Json → Prop} :
    (∀ member ∈ Outline.flagMember key flag, holds member) ↔
      (flag = true → holds (key, .bool true)) := by
  cases flag <;> simp [Outline.flagMember]

theorem keys_flagMember (key : String) (flag : Bool) :
    keys (Outline.flagMember key flag) = if flag then [key] else [] := by
  cases flag <;> rfl

theorem Kind.ofJson_name (kind : Kind) : ofJson (.str kind.name) = .ok kind := by
  cases kind <;> rfl

namespace Traits

/-- The number among the traits is below 2 ^ 32. -/
def Fits (traits : Traits) : Prop :=
  ∀ line, traits.finishesAt = some line → line < 4294967296

/-- The traits as far as the keys are known. -/
def upTo (traits : Traits) (known : List String) : Traits where
  isMethodImplementation := "isMethodImplementation" ∈ known && traits.isMethodImplementation
  isMethodDeclaration := "isMethodDeclaration" ∈ known && traits.isMethodDeclaration
  isGlobalProcedure := "isGlobalProcedure" ∈ known && traits.isGlobalProcedure
  isSpecialRoutine := "isSpecialRoutine" ∈ known && traits.isSpecialRoutine
  isInterface := "isInterface" ∈ known && traits.isInterface
  isMapProcedure := "isMapProcedure" ∈ known && traits.isMapProcedure
  finishesAt := if "finishesAt" ∈ known then traits.finishesAt else none
  fieldPrefix := if "clarionPrefix" ∈ known then traits.fieldPrefix else none
  label := if "clarionLabel" ∈ known then traits.label else none
  dataType := if "clarionType" ∈ known then traits.dataType else none
  dataName := if "clarionVarName" ∈ known then traits.dataName else none
  isPartOfStructure := "isPartOfStructure" ∈ known && traits.isPartOfStructure
  references := if "possibleReferences" ∈ known then traits.references else []

variable {traits : Traits}

theorem members_read (fits : traits.Fits) :
    ∀ member ∈ traits.members, Reads slots traits.upTo member := by
  simp only [members, List.forall_mem_append, forall_mem_setMember, forall_mem_flagMember]
  refine ⟨⟨⟨⟨⟨⟨⟨⟨⟨⟨⟨⟨?_, ?_⟩, ?_⟩, ?_⟩, ?_⟩, ?_⟩, ?_⟩, ?_⟩, ?_⟩, ?_⟩, ?_⟩, ?_⟩, ?_⟩
  · intro set
    refine .bool ⟨slots[0], List.getElem_mem _, rfl, fun known => ?_⟩
    simp [slots, decodeBool_bool, upTo, set]
  · intro set
    refine .bool ⟨slots[1], List.getElem_mem _, rfl, fun known => ?_⟩
    simp [slots, decodeBool_bool, upTo, set]
  · intro set
    refine .bool ⟨slots[2], List.getElem_mem _, rfl, fun known => ?_⟩
    simp [slots, decodeBool_bool, upTo, set]
  · intro set
    refine .bool ⟨slots[3], List.getElem_mem _, rfl, fun known => ?_⟩
    simp [slots, decodeBool_bool, upTo, set]
  · intro set
    refine .bool ⟨slots[4], List.getElem_mem _, rfl, fun known => ?_⟩
    simp [slots, decodeBool_bool, upTo, set]
  · intro set
    refine .bool ⟨slots[5], List.getElem_mem _, rfl, fun known => ?_⟩
    simp [slots, decodeBool_bool, upTo, set]
  · intro line set
    refine .int ⟨slots[6], List.getElem_mem _, rfl, fun known => ?_⟩
    simp [slots, decodeOption_int (decodeNat32_int (fits line set)), upTo, set]
  · intro text set
    refine .str ⟨slots[7], List.getElem_mem _, rfl, fun known => ?_⟩
    simp [slots, decodeOption_str (decodeString_str text), upTo, set]
  · intro text set
    refine .str ⟨slots[8], List.getElem_mem _, rfl, fun known => ?_⟩
    simp [slots, decodeOption_str (decodeString_str text), upTo, set]
  · intro text set
    refine .str ⟨slots[9], List.getElem_mem _, rfl, fun known => ?_⟩
    simp [slots, decodeOption_str (decodeString_str text), upTo, set]
  · intro text set
    refine .str ⟨slots[10], List.getElem_mem _, rfl, fun known => ?_⟩
    simp [slots, decodeOption_str (decodeString_str text), upTo, set]
  · intro set
    refine .bool ⟨slots[11], List.getElem_mem _, rfl, fun known => ?_⟩
    simp [slots, decodeBool_bool, upTo, set]
  · intro member here
    split at here
    · cases here
    · obtain rfl := List.mem_singleton.mp here
      refine .strings ⟨slots[12], List.getElem_mem _, rfl, fun known => ?_⟩
      simp [slots, decodeList_strings, upTo]

theorem keys_members (traits : Traits) : keys traits.members =
    (if traits.isMethodImplementation then ["isMethodImplementation"] else []) ++
      (if traits.isMethodDeclaration then ["isMethodDeclaration"] else []) ++
      (if traits.isGlobalProcedure then ["isGlobalProcedure"] else []) ++
      (if traits.isSpecialRoutine then ["isSpecialRoutine"] else []) ++
      (if traits.isInterface then ["isInterface"] else []) ++
      (if traits.isMapProcedure then ["isMapProcedure"] else []) ++
      (if traits.finishesAt.isSome then ["finishesAt"] else []) ++
      (if traits.fieldPrefix.isSome then ["clarionPrefix"] else []) ++
      (if traits.label.isSome then ["clarionLabel"] else []) ++
      (if traits.dataType.isSome then ["clarionType"] else []) ++
      (if traits.dataName.isSome then ["clarionVarName"] else []) ++
      (if traits.isPartOfStructure then ["isPartOfStructure"] else []) ++
      (if ¬traits.references.isEmpty then ["possibleReferences"] else []) := by
  simp only [members, keys_append, keys_setMember, keys_flagMember]
  congr 1
  cases traits.references <;> rfl

theorem keys_sublist (traits : Traits) : (keys traits.members).Sublist (slots.map Slot.key) := by
  rw [keys_members]
  change List.Sublist _ (["isMethodImplementation"] ++ ["isMethodDeclaration"] ++
    ["isGlobalProcedure"] ++ ["isSpecialRoutine"] ++ ["isInterface"] ++ ["isMapProcedure"] ++
    ["finishesAt"] ++ ["clarionPrefix"] ++ ["clarionLabel"] ++ ["clarionType"] ++
    ["clarionVarName"] ++ ["isPartOfStructure"] ++ ["possibleReferences"])
  repeat' refine List.Sublist.append ?_ (keyIf_sublist _ _)
  exact keyIf_sublist _ _

/-- Neither unset flags nor absent options nor an empty list of references are written. -/
theorem no_default_of_mem : ∀ member ∈ traits.members,
    member.2 ≠ .null ∧ member.2 ≠ .bool false ∧ member.2 ≠ .arr [] := by
  simp only [members, List.forall_mem_append, forall_mem_setMember, forall_mem_flagMember]
  refine ⟨by simp, ?_⟩
  intro member here
  split at here
  case isTrue => cases here
  case isFalse some_ =>
    obtain rfl := List.mem_singleton.mp here
    simpa using some_

end Traits

/-! ### Symbols -/

namespace Symbol

/-- The members of the JSON form. -/
def members (symbol : Symbol) : List (String × Json) :=
  [("name", .str symbol.info.name), ("detail", .str symbol.info.detail),
    ("kind", .str symbol.info.kind.name), ("range", symbol.info.range.toJson),
    ("selectionRange", symbol.info.selection.toJson)] ++
    setMember "sortText" .str symbol.info.sortText ++ symbol.info.traits.members ++
    [("children", .arr (allToJson symbol.children))]

theorem toJson_eq (symbol : Symbol) : symbol.toJson = .obj symbol.members := by
  cases symbol
  rfl

mutual

/-- The numbers of a symbol and of all symbols below it are below 2 ^ 32. -/
def Fits : Symbol → Prop
  | ⟨info, children⟩ => info.range.Fits ∧ info.selection.Fits ∧ info.traits.Fits ∧ AllFit children

/-- The numbers of all symbols of a forest are below 2 ^ 32. -/
def AllFit : List Symbol → Prop
  | [] => True
  | symbol :: rest => Fits symbol ∧ AllFit rest

end

/-- All fields of a symbol, its children last. -/
def fields : List (Slot Draft) :=
  slots ++ [⟨"children", fun j d => return { d with children := ← childrenOfJson j }⟩]

/-- Members are gone through in the same way whether children are a field among the others or
looked for first, as long as nothing but fields counts as filled. -/
theorem fillDraft_eq {filled : List String} (known : ∀ key ∈ filled, key ∈ fields.map Slot.key)
    (draft : Draft) (members : List (String × Json)) :
    fillDraft filled draft members = fillMembers fields filled draft members := by
  induction members generalizing filled draft with
  | nil => rfl
  | cons member rest ih =>
    obtain ⟨key, value⟩ := member
    have later : key ∈ fields.map Slot.key → ∀ other,
        fillDraft (key :: filled) other rest = fillMembers fields (key :: filled) other rest :=
      fun field other => ih (List.forall_mem_cons.mpr ⟨field, known⟩) other
    rw [fillDraft, fillMembers]
    by_cases isChildren : key = "children"
    · subst isChildren
      have here : fields.find? (·.key == "children") = some ⟨"children", fun j d =>
          return { d with children := ← childrenOfJson j }⟩ := rfl
      rw [here]
      split
      · rfl
      · cases read : childrenOfJson value with
        | error fault => simp [read]; rfl
        | ok children => simp [read]; exact later (by decide) _
    · have here : fields.find? (·.key == key) = slots.find? (·.key == key) := by
        rw [fields, List.find?_append, List.find?_singleton]
        simp [Ne.symm isChildren]
      rw [here]
      cases found : slots.find? (·.key == key) with
      | none =>
        have unknown : key ∉ fields.map Slot.key := by
          intro field
          obtain ⟨slot, member, same⟩ := List.mem_map.mp field
          exact List.find?_eq_none.mp (here.trans found) slot member (by simp [same])
        have unfilled : filled.contains key = false := by
          simpa using fun twice => unknown (known key twice)
        simp only [unfilled, isChildren, beq_iff_eq, Bool.false_eq_true, if_false]
        cases value.skip with
        | none => exact ih known draft
        | some fault => rfl
      | some slot =>
        have field : key ∈ fields.map Slot.key := by
          have same : slot.key = key := by simpa using List.find?_some found
          exact List.mem_map.mpr ⟨slot, List.mem_of_find?_eq_some (here.trans found), same⟩
        split
        · rfl
        · cases read : slot.fill value draft with
          | error fault => simp [read, isChildren]; rfl
          | ok other => simp [read, isChildren]; exact later field other

/-- The symbol as far as the keys are known. -/
def upTo (symbol : Symbol) (known : List String) : Draft where
  name := if "name" ∈ known then some symbol.info.name else none
  detail := if "detail" ∈ known then some symbol.info.detail else none
  kind := if "kind" ∈ known then some symbol.info.kind else none
  range := if "range" ∈ known then some symbol.info.range else none
  selection := if "selectionRange" ∈ known then some symbol.info.selection else none
  sortText := if "sortText" ∈ known then symbol.info.sortText else none
  traits := symbol.info.traits.upTo known
  children := if "children" ∈ known then symbol.children else []

variable {symbol : Symbol}

theorem keys_members (symbol : Symbol) : keys symbol.members =
    ["name", "detail", "kind", "range", "selectionRange"] ++
      (if symbol.info.sortText.isSome then ["sortText"] else []) ++
      keys symbol.info.traits.members ++ ["children"] := by
  simp only [members, keys_append, keys_setMember, keys_cons, keys_nil]

theorem keys_sublist (symbol : Symbol) : (keys symbol.members).Sublist (fields.map Slot.key) := by
  rw [keys_members]
  change List.Sublist _ (["name", "detail", "kind", "range", "selectionRange"] ++ ["sortText"] ++
    Traits.slots.map Slot.key ++ ["children"])
  exact (((List.Sublist.refl _).append (keyIf_sublist _ _)).append
    (Traits.keys_sublist _)).append (.refl _)

theorem upTo_finish {known : List String} (all : ∀ key, key ∈ known ↔ key ∈ keys symbol.members) :
    (symbol.upTo known).finish = .ok symbol := by
  obtain ⟨info, children⟩ := symbol
  simp [upTo, Traits.upTo, Draft.finish, all, keys_members, Traits.keys_members, ite_isSome, ite_nil,
    required]
  rfl

theorem ofJson_obj (members : List (String × Json)) (stop : Option Stop) :
    ofJson (.obj members stop) = (do
      let draft ← fillMembers fields [] {} members
      unlessStopped (stop.map Stop.fault) ()
      draft.finish) := by
  rw [ofJson, fillDraft_eq (by simp)]

/-- A key of the traits changes nothing but the traits. -/
theorem upTo_cons_trait {key : String} (trait : key ∈ Traits.slots.map Slot.key)
    (known : List String) : symbol.upTo (key :: known) =
      { symbol.upTo known with traits := symbol.info.traits.upTo (key :: known) } := by
  have apart : ∀ key ∈ Traits.slots.map Slot.key, ∀ own ∈ ["name", "detail", "kind", "range",
      "selectionRange", "sortText", "children"], own ≠ key := by decide +kernel
  have apart := apart key trait
  simp only [List.forall_mem_cons] at apart
  simp [upTo, apart]

/-- A trait is read in the same way among the members of a symbol. -/
theorem reads_of_trait {member : String × Json}
    (reads : Reads Traits.slots symbol.info.traits.upTo member) :
    Reads fields symbol.upTo member := by
  intro other same
  obtain ⟨⟨slot, here, sameKey, adds⟩, settled⟩ := reads other same
  have trait : member.1 ∈ Traits.slots.map Slot.key := List.mem_map.mpr ⟨slot, here, sameKey⟩
  refine ⟨⟨⟨slot.key, fun j d => return { d with traits := ← slot.fill j d.traits }⟩, ?_, sameKey,
    ?_⟩, settled⟩
  · exact List.mem_append_left _ (List.mem_append_right _ (List.mem_map.mpr ⟨slot, here, rfl⟩))
  · intro known
    have filled : slot.fill other (symbol.upTo known).traits = _ := adds known
    simp only [filled, sameKey]
    exact congrArg Except.ok (upTo_cons_trait trait known).symm

/-- Neither unset flags nor absent options are written, and of lists that may be empty only that of
the children. -/
theorem no_default_of_mem : ∀ member ∈ symbol.members,
    member.2 ≠ .null ∧ member.2 ≠ .bool false ∧ (member.2 = .arr [] → member.1 = "children") := by
  simp only [members, List.forall_mem_append, List.forall_mem_cons, forall_mem_setMember]
  refine ⟨⟨⟨by simp [Range.toJson], by simp⟩, ?_⟩, by simp⟩
  intro member here
  obtain ⟨notNull, notFalse, notEmpty⟩ := Traits.no_default_of_mem member here
  exact ⟨notNull, notFalse, fun empty => absurd empty notEmpty⟩

theorem members_read (range : symbol.info.range.Fits) (selection : symbol.info.selection.Fits)
    (traits : symbol.info.traits.Fits)
    (children : ReadsBack childrenOfJson (.arr (allToJson symbol.children)) symbol.children) :
    ∀ member ∈ symbol.members, Reads fields symbol.upTo member := by
  simp only [members, List.forall_mem_append, List.forall_mem_cons, forall_mem_setMember]
  refine ⟨⟨⟨⟨?_, ?_, ?_, ?_, ?_, by simp⟩, ?_⟩, ?_⟩, ?_, by simp⟩
  · refine .str ⟨fields[0], List.getElem_mem _, rfl, fun known => ?_⟩
    simp [fields, slots, decodeString_str, upTo, Traits.upTo]
  · refine .str ⟨fields[1], List.getElem_mem _, rfl, fun known => ?_⟩
    simp [fields, slots, decodeString_str, upTo, Traits.upTo]
  · refine .str ⟨fields[2], List.getElem_mem _, rfl, fun known => ?_⟩
    simp [fields, slots, Kind.ofJson_name, upTo, Traits.upTo]
  · intro other same
    obtain ⟨read, settled⟩ := Range.readsBack range other same
    refine ⟨⟨fields[3], List.getElem_mem _, rfl, fun known => ?_⟩, settled⟩
    simp [fields, slots, read, upTo, Traits.upTo]
  · intro other same
    obtain ⟨read, settled⟩ := Range.readsBack selection other same
    refine ⟨⟨fields[4], List.getElem_mem _, rfl, fun known => ?_⟩, settled⟩
    simp [fields, slots, read, upTo, Traits.upTo]
  · intro text set
    refine .str ⟨fields[5], List.getElem_mem _, rfl, fun known => ?_⟩
    simp [fields, slots, decodeOption_str (decodeString_str text), upTo, Traits.upTo, set]
  · exact fun member here => reads_of_trait (Traits.members_read traits member here)
  · intro other same
    obtain ⟨read, settled⟩ := children other same
    refine ⟨⟨fields[19], List.getElem_mem _, rfl, fun known => ?_⟩, settled⟩
    simp [fields, slots, Traits.slots, read, upTo, Traits.upTo]

mutual

theorem readsBack : ∀ symbol : Symbol, symbol.Fits → ReadsBack ofJson symbol.toJson symbol
  | ⟨info, children⟩, ⟨range, selection, traits, below⟩ => by
    intro value same
    have childrenRead : ReadsBack childrenOfJson (.arr (allToJson children)) children := by
      intro value same
      obtain ⟨others, rfl, each⟩ := same.of_arr
      obtain ⟨read, settled⟩ := allReadBack children below others each
      refine ⟨?_, ?_⟩
      · rw [childrenOfJson, read]
        rfl
      · rw [settle, settleItems_eq settled]
    have read : ∀ member ∈ members ⟨info, children⟩, Reads fields (upTo ⟨info, children⟩) member :=
      members_read range selection traits childrenRead
    obtain ⟨moved, known, rfl, all, filled, settled⟩ :=
      fillMembers_reordered (by decide +kernel) ((keys_sublist _).nodup (by decide +kernel)) read
        same
    change fillMembers fields [] {} moved = _ at filled
    refine ⟨?_, settled⟩
    rw [ofJson_obj, filled]
    exact upTo_finish all

theorem allReadBack : ∀ symbols : List Symbol, AllFit symbols →
    ∀ others, List.Forall₂ Reorders (allToJson symbols) others →
      allOfJson others = .ok symbols ∧ ∀ item ∈ others, item.settle = item
  | [], _ => by
    intro others each
    obtain rfl := List.forall₂_nil_left_iff.mp each
    exact ⟨rfl, by simp⟩
  | symbol :: rest, ⟨fits, later⟩ => by
    intro others each
    obtain ⟨first, others, same, eachLater, rfl⟩ := List.forall₂_cons_left_iff.mp each
    obtain ⟨read, settled⟩ := readsBack symbol fits first same
    obtain ⟨readRest, settledRest⟩ := allReadBack rest later others eachLater
    refine ⟨?_, List.forall_mem_cons.mpr ⟨settled, settledRest⟩⟩
    rw [allOfJson, read, readRest]
    rfl

end

end Symbol

end Outline

/-! ### Members that are no fields -/

namespace Outline.Symbol

mutual

/-- The value without members that are no fields, at every depth of the symbol. -/
def onlyFields : Json → Json
  | .obj members stop => .obj (membersOnlyFields members) stop
  | other => other

/-- The members that are fields of a symbol, with fields only inside them. -/
def membersOnlyFields : List (String × Json) → List (String × Json)
  | [] => []
  | (key, value) :: rest =>
    if key = "children" then (key, childrenOnlyFields value) :: membersOnlyFields rest
    else if key = "range" ∨ key = "selectionRange" then
      (key, Range.onlyFields value) :: membersOnlyFields rest
    else if key ∈ fields.map Slot.key then (key, value) :: membersOnlyFields rest
    else membersOnlyFields rest

/-- A list of children, each with fields only. -/
def childrenOnlyFields : Json → Json
  | .arr items stop => .arr (allOnlyFields items) stop
  | other => other

/-- Symbols of a forest, each with fields only. -/
def allOnlyFields : List Json → List Json
  | [] => []
  | item :: rest => onlyFields item :: allOnlyFields rest

end

theorem eq_of_key {slot other : Slot Draft} (here : slot ∈ fields) (there : other ∈ fields)
    (same : slot.key = other.key) : slot = other :=
  List.inj_on_of_nodup_map (by decide +kernel) here there same

mutual

theorem ofJson_onlyFields : ∀ value : Json, value.skip = none →
    ofJson (onlyFields value) = ofJson value
  | .obj members stop, whole => by
    rw [onlyFields, ofJson_obj, ofJson_obj,
      fillMembers_sameFields (sameFields_membersOnlyFields members (skip_obj whole))]
  | .arr _ _, _ | .null, _ | .bool _, _ | .int _, _ | .real, _ | .str _, _ | .flaw _, _ => rfl

theorem sameFields_membersOnlyFields : ∀ members : List (String × Json),
    skipMembers members = none → SameFields fields members (membersOnlyFields members)
  | [], _ => .nil
  | (key, value) :: rest, whole => by
    obtain ⟨here, later⟩ := skipMembers_cons.mp whole
    have below := childrenOfJson_onlyFields value here
    have restSame := sameFields_membersOnlyFields rest later
    rw [membersOnlyFields]
    split_ifs with isChildren isRange isField
    · subst isChildren
      refine .field (by decide) (fun slot member sameKey => ?_) restSame
      rw [eq_of_key member (List.getElem_mem (by decide : 19 < fields.length)) sameKey]
      simp [fields, slots, Traits.slots, below]
    · have known : key ∈ fields.map Slot.key := by
        rcases isRange with rfl | rfl <;> decide
      refine .field known (fun slot member sameKey => ?_) restSame
      rcases isRange with rfl | rfl
      · rw [eq_of_key member (List.getElem_mem (by decide : 3 < fields.length)) sameKey]
        simp [fields, slots, Range.ofJson_onlyFields here]
      · rw [eq_of_key member (List.getElem_mem (by decide : 4 < fields.length)) sameKey]
        simp [fields, slots, Range.ofJson_onlyFields here]
    · exact .field isField (fun _ _ _ => rfl) restSame
    · exact .extra isField here restSame

theorem childrenOfJson_onlyFields : ∀ value : Json, value.skip = none →
    childrenOfJson (childrenOnlyFields value) = childrenOfJson value
  | .arr items stop, whole => by
    rw [childrenOnlyFields, childrenOfJson, childrenOfJson,
      allOfJson_onlyFields items (skip_arr whole)]
  | .obj _ _, _ | .null, _ | .bool _, _ | .int _, _ | .real, _ | .str _, _ | .flaw _, _ => rfl

theorem allOfJson_onlyFields : ∀ items : List Json, skipItems items = none →
    allOfJson (allOnlyFields items) = allOfJson items
  | [], _ => rfl
  | item :: rest, whole => by
    obtain ⟨here, later⟩ := skipItems_cons.mp whole
    rw [allOnlyFields, allOfJson, allOfJson, ofJson_onlyFields item here,
      allOfJson_onlyFields rest later]

end

end Outline.Symbol

end Clarion
