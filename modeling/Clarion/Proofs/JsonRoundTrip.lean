import Clarion.Proofs.SymbolReading
import Clarion.Token.Json

/-! What is written as JSON reads back to itself: tokens, and symbols with all that stands below
them. Neither the order of members nor members that are no fields make a difference. -/
namespace Clarion

open Json

/-! ### Tokens -/

namespace Token

theorem forall_mem_optionMember {α : Type} {key : String} {encode : α → Json} {option : Option α}
    {holds : String × Json → Prop} :
    (∀ member ∈ Token.optionMember key encode option, holds member) ↔
      ∀ value, option = some value → holds (key, encode value) := by
  cases option <;> simp [Token.optionMember]

theorem keys_optionMember {α : Type} (key : String) (encode : α → Json) (option : Option α) :
    keys (Token.optionMember key encode option) = if option.isSome then [key] else [] := by
  cases option <;> rfl

/-- The numbers of the token are below 2 ^ 32. -/
def Fits (token : Token) : Prop :=
  token.line < 4294967296 ∧ token.start < 4294967296 ∧
    ∀ line, token.finishesAt = some line → line < 4294967296

/-- The members of the JSON form. -/
def members (token : Token) : List (String × Json) :=
  [("type", .str token.kind.name)] ++
    optionMember "subType" (fun role => .str role.name) token.role ++
    [("value", .str token.value), ("line", .int token.line), ("start", .int token.start)] ++
    optionMember "finishesAt" (fun line => .int (line : Nat)) token.finishesAt ++
    optionMember "label" .str token.label ++
    optionMember "executionMarker" (fun part => .str part.name) token.bodySection ++
    optionMember "structurePrefix" .str token.fieldPrefix ++
    optionMember "hasLocalData" .bool token.hasLocalData

theorem toJson_eq (token : Token) : token.toJson = .obj token.members :=
  rfl

/-- The token as far as the keys are known. -/
def upTo (token : Token) (known : List String) : Draft where
  kind := if "type" ∈ known then some token.kind else none
  role := if "subType" ∈ known then token.role else none
  value := if "value" ∈ known then some token.value else none
  line := if "line" ∈ known then some token.line else none
  start := if "start" ∈ known then some token.start else none
  finishesAt := if "finishesAt" ∈ known then token.finishesAt else none
  label := if "label" ∈ known then token.label else none
  bodySection := if "executionMarker" ∈ known then token.bodySection else none
  fieldPrefix := if "structurePrefix" ∈ known then token.fieldPrefix else none
  hasLocalData := if "hasLocalData" ∈ known then token.hasLocalData else none

theorem Kind.decode_name (kind : Kind) : decodeChoice names (.str kind.name) = .ok kind := by
  cases kind <;> rfl

theorem Role.decode_name (role : Role) : decodeChoice names (.str role.name) = .ok role := by
  cases role <;> rfl

theorem Section.decode_name (part : Section) : decodeChoice names (.str part.name) = .ok part := by
  cases part <;> rfl

variable {token : Token} {value : Json}

theorem members_read (fits : token.Fits) :
    ∀ member ∈ token.members, Reads slots token.upTo member := by
  obtain ⟨line, start, finishesAt⟩ := fits
  simp only [members, List.forall_mem_append, List.forall_mem_cons, forall_mem_optionMember]
  refine ⟨⟨⟨⟨⟨⟨⟨⟨?_, by simp⟩, ?_⟩, ?_, ?_, ?_, by simp⟩, ?_⟩, ?_⟩, ?_⟩, ?_⟩, ?_⟩
  · refine .str ⟨slots[0], List.getElem_mem _, rfl, fun known => ?_⟩
    simp [slots, Kind.decode_name, upTo]
  · intro role set
    refine .str ⟨slots[1], List.getElem_mem _, rfl, fun known => ?_⟩
    simp [slots, decodeOption_str role.decode_name, upTo, set]
  · refine .str ⟨slots[2], List.getElem_mem _, rfl, fun known => ?_⟩
    simp [slots, decodeString, upTo]
  · refine .int ⟨slots[3], List.getElem_mem _, rfl, fun known => ?_⟩
    simp [slots, decodeNat32_int line, upTo]
  · refine .int ⟨slots[4], List.getElem_mem _, rfl, fun known => ?_⟩
    simp [slots, decodeNat32_int start, upTo]
  · intro last set
    refine .int ⟨slots[5], List.getElem_mem _, rfl, fun known => ?_⟩
    simp [slots, decodeOption_int (decodeNat32_int (finishesAt last set)), upTo, set]
  · intro label set
    refine .str ⟨slots[6], List.getElem_mem _, rfl, fun known => ?_⟩
    simp [slots, decodeOption_str (decodeString_str label), upTo, set]
  · intro part set
    refine .str ⟨slots[7], List.getElem_mem _, rfl, fun known => ?_⟩
    simp [slots, decodeOption_str part.decode_name, upTo, set]
  · intro label set
    refine .str ⟨slots[8], List.getElem_mem _, rfl, fun known => ?_⟩
    simp [slots, decodeOption_str (decodeString_str label), upTo, set]
  · intro truth set
    refine .bool ⟨slots[9], List.getElem_mem _, rfl, fun known => ?_⟩
    simp [slots, decodeOption_bool, upTo, set]

theorem keys_members (token : Token) : keys token.members =
    ["type"] ++ (if token.role.isSome then ["subType"] else []) ++ ["value", "line", "start"] ++
      (if token.finishesAt.isSome then ["finishesAt"] else []) ++
      (if token.label.isSome then ["label"] else []) ++
      (if token.bodySection.isSome then ["executionMarker"] else []) ++
      (if token.fieldPrefix.isSome then ["structurePrefix"] else []) ++
      (if token.hasLocalData.isSome then ["hasLocalData"] else []) := by
  simp only [members, keys_append, keys_optionMember, keys_cons, keys_nil]

theorem keys_sublist (token : Token) : (keys token.members).Sublist (slots.map Slot.key) := by
  rw [keys_members]
  change List.Sublist _ (["type"] ++ ["subType"] ++ ["value", "line", "start"] ++ ["finishesAt"] ++
    ["label"] ++ ["executionMarker"] ++ ["structurePrefix"] ++ ["hasLocalData"])
  exact (((((((List.Sublist.refl _).append (keyIf_sublist _ _)).append (.refl _)).append
    (keyIf_sublist _ _)).append (keyIf_sublist _ _)).append (keyIf_sublist _ _)).append
    (keyIf_sublist _ _)).append (keyIf_sublist _ _)

theorem upTo_finish {known : List String} (all : ∀ key, key ∈ known ↔ key ∈ keys token.members) :
    (token.upTo known).finish = .ok token := by
  simp [upTo, Draft.finish, all, keys_members, ite_isSome, required]
  rfl

theorem not_null_of_mem : ∀ member ∈ token.members, member.2 ≠ .null := by
  simp only [members, List.forall_mem_append, List.forall_mem_cons, forall_mem_optionMember]
  simp

theorem readsBack (fits : token.Fits) : ReadsBack ofJson token.toJson token := by
  intro value same
  obtain ⟨known, all, filled, settled⟩ := fillRecord_reordered (by decide)
    ((keys_sublist token).nodup (by decide)) (members_read fits) same
  change fillRecord slots {} value = _ at filled
  refine ⟨?_, settled⟩
  rw [ofJson, filled]
  exact upTo_finish all

/-- The value without members that are no fields of a token. -/
def onlyFields : Json → Json :=
  Json.onlyFields (slots.map Slot.key) id

theorem ofJson_onlyFields {value : Json} (whole : value.skip = none) :
    ofJson (onlyFields value) = ofJson value := by
  rw [ofJson, ofJson, onlyFields, fillRecord_onlyFields id (fun _ _ _ _ => rfl) whole]

end Token

/-! ### The round trip -/

/-- What is written for a token or a symbol reads back to it, in whatever order the members of the
written objects come, although what is unset is left out and the traits of a symbol stand among its
own members; and members that are no fields make no difference to what is read. -/
theorem json_reads_back :
    (∀ token : Token, token.Fits → ∀ value, token.toJson.Reorders value →
        Token.ofJson value = .ok token ∧ decodeValue Token.ofJson value = .ok token) ∧
      (∀ symbol : Outline.Symbol, symbol.Fits → ∀ value, symbol.toJson.Reorders value →
        Outline.Symbol.ofJson value = .ok symbol ∧
          decodeValue Outline.Symbol.ofJson value = .ok symbol) ∧
      (∀ value : Json, value.skip = none →
        Token.ofJson (Token.onlyFields value) = Token.ofJson value ∧
          Outline.Symbol.ofJson (Outline.Symbol.onlyFields value) =
            Outline.Symbol.ofJson value) ∧
      (∀ token : Token, ∃ members, token.toJson = .obj members ∧ (keys members).Nodup ∧
        ∀ member ∈ members, member.2 ≠ .null) ∧
      ∀ symbol : Outline.Symbol, ∃ members, symbol.toJson = .obj members ∧ (keys members).Nodup ∧
        symbol.info.traits.members ⊆ members ∧
        ∀ member ∈ members, member.2 ≠ .null ∧ member.2 ≠ .bool false ∧
          (member.2 = .arr [] → member.1 = "children") := by
  refine ⟨?_, ?_, ?_, ?_, ?_⟩
  · intro token fits value same
    have back := token.readsBack fits
    exact ⟨(back value same).1, back.decodeValue same⟩
  · intro symbol fits value same
    have back := symbol.readsBack fits
    exact ⟨(back value same).1, back.decodeValue same⟩
  · intro value whole
    exact ⟨Token.ofJson_onlyFields whole, Outline.Symbol.ofJson_onlyFields value whole⟩
  · intro token
    exact ⟨token.members, token.toJson_eq, (token.keys_sublist).nodup (by decide),
      token.not_null_of_mem⟩
  · intro symbol
    refine ⟨symbol.members, symbol.toJson_eq, symbol.keys_sublist.nodup (by decide +kernel), ?_,
      symbol.no_default_of_mem⟩
    intro member here
    exact List.mem_append_left _ (List.mem_append_right _ here)

/-- A procedure with a counter of its own. -/
def countingProcedure : Outline.Symbol where
  info := {
    name := "Main ()"
    detail := ""
    kind := .procedure
    range := ⟨⟨3, 0⟩, ⟨9, 8⟩⟩
    selection := ⟨⟨3, 0⟩, ⟨3, 4⟩⟩
    traits := { isGlobalProcedure := true, finishesAt := some 9 } }
  children := [{
    info := {
      name := "Count LONG"
      detail := "LONG"
      kind := .variableDecl
      range := ⟨⟨4, 0⟩, ⟨4, 10⟩⟩
      selection := ⟨⟨4, 0⟩, ⟨4, 5⟩⟩
      sortText := some "0002"
      traits := { label := some "Count", dataType := some "LONG", references := ["COUNT"] } }
    children := [] }]

/-- The token that opens it. -/
def countingProcedureToken : Token where
  kind := .procedure
  role := some .globalProcedure
  value := "PROCEDURE"
  line := 3
  start := 6
  finishesAt := some 9
  label := some "Main"
  hasLocalData := some false

theorem countingProcedure_reads_back :
    let noted : Json := .obj (("note", .real) :: countingProcedure.members)
    countingProcedureToken.Fits ∧ countingProcedure.Fits ∧ noted.skip = none ∧
      Token.ofJson (.obj countingProcedureToken.members.reverse) = .ok countingProcedureToken ∧
      Outline.Symbol.ofJson (.obj countingProcedure.members.reverse) = .ok countingProcedure ∧
      Outline.Symbol.ofJson noted = .ok countingProcedure := by
  intro noted
  obtain ⟨tokens, symbols, fieldsOnly, -, -⟩ := json_reads_back
  have tokenFits : countingProcedureToken.Fits := by
    simp [Token.Fits, countingProcedureToken]
  have fits : countingProcedure.Fits := by
    simp [countingProcedure, Outline.Symbol.Fits, Outline.Symbol.AllFit, Range.Fits, Position.Fits,
      Outline.Traits.Fits]
  have whole : noted.skip = none := by decide +kernel
  have moved (members : List (String × Json)) : Reorders (.obj members) (.obj members.reverse) :=
    .obj rfl (List.forall₂_same.mpr fun value _ => .refl value) (List.reverse_perm members).symm
  refine ⟨tokenFits, fits, whole, ?_, ?_, ?_⟩
  · exact (tokens countingProcedureToken tokenFits _ (moved _)).1
  · exact (symbols countingProcedure fits _ (countingProcedure.toJson_eq ▸ moved _)).1
  · rw [← (fieldsOnly noted whole).2]
    exact (symbols countingProcedure fits _ (.refl _)).1

end Clarion
