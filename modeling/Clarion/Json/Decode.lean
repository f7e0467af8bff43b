import Clarion.Json.Reader

/-! Decoding values into records and choices. A decoder goes through a value from left to right, so
it reports the first fault of the text. -/
namespace Clarion.Json

/-- A decoder into `α`. -/
abbrev Decoder (α : Type) := Json → Except Fault α

/-- The fault of a value that a decoder has no use for: its own, or the wrong shape. -/
def misfit : Json → Fault
  | .flaw place => place.onRead
  | _ => .mistyped

/-- A string. -/
def decodeString : Decoder String
  | .str text => .ok text
  | other => .error other.misfit

/-- A truth value. -/
def decodeBool : Decoder Bool
  | .bool value => .ok value
  | other => .error other.misfit

/-- A natural number below 2 ^ 32. -/
def decodeNat32 : Decoder Nat
  | .int value => if 0 ≤ value ∧ value < 4294967296 then .ok value.toNat else .error .mistyped
  | other => .error other.misfit

/-- A value or `null`. -/
def decodeOption {α : Type} (decode : Decoder α) : Decoder (Option α)
  | .null => .ok none
  | .flaw (.nullWord fault) => .error fault
  | other => (decode other).map some

/-- The result of going through a value, unless the value breaks off after what was gone through. -/
def unlessStopped {α : Type} (stop : Option Fault) (result : α) : Except Fault α :=
  stop.elim (.ok result) .error

/-- The items of an array, in order. -/
def decodeItems {α : Type} (decode : Decoder α) : List Json → Except Fault (List α)
  | [] => .ok []
  | item :: rest => do
    let value ← decode item
    let values ← decodeItems decode rest
    return value :: values

/-- An array. -/
def decodeList {α : Type} (decode : Decoder α) : Decoder (List α)
  | .arr items stop => do
    let values ← decodeItems decode items
    unlessStopped stop values
  | other => .error other.misfit

/-- A choice written as its name, or as an object with the name over `null`. -/
def decodeChoice {α : Type} (choices : List (String × α)) : Decoder α
  | .str name => (choices.lookup name).elim (.error .mistyped) .ok
  | .obj [] stop => .error ((stop.map Stop.onChoice).getD .malformed)
  | .obj ((name, value) :: rest) stop =>
    match choices.lookup name, value, rest with
    | none, _, _ => .error .mistyped
    | some choice, .null, [] => unlessStopped (stop.map Stop.onChoice) choice
    | some _, .null, _ :: _ => .error .malformed
    | some _, other, _ => .error other.misfit
  | .flaw place => .error place.onChoice
  | _ => .error .malformed

/-- One field of a record under construction. -/
structure Slot (σ : Type) where
  key : String
  fill : Json → σ → Except Fault σ

/-- Fills a record from the members of an object. A key that no slot has is passed over; a slot
filled twice is a fault. -/
def fillMembers {σ : Type} (slots : List (Slot σ)) (filled : List String) (record : σ) :
    List (String × Json) → Except Fault σ
  | [] => .ok record
  | (key, value) :: rest =>
    match slots.find? (·.key == key) with
    | none =>
      match value.skip with
      | some fault => .error fault
      | none => fillMembers slots filled record rest
    | some slot =>
      if filled.contains key then .error .mistyped
      else do
        let record ← slot.fill value record
        fillMembers slots (key :: filled) record rest

/-- Fills a record by position. Once every slot is filled, a further comma is wrong already. -/
def fillItems {σ : Type} : List (Slot σ) → σ → List Json → Except Fault σ
  | _, record, [] => .ok record
  | [], _, _ :: _ => .error .malformed
  | slot :: slots, record, item :: rest => do
    let record ← slot.fill item record
    fillItems slots record rest

/-- Fills a record from an object or, by position, from an array. -/
def fillRecord {σ : Type} (slots : List (Slot σ)) (empty : σ) : Decoder σ
  | .obj members stop => do
    let record ← fillMembers slots [] empty members
    unlessStopped (stop.map Stop.fault) record
  | .arr items stop => do
    let record ← fillItems slots empty items
    unlessStopped stop record
  | other => .error other.misfit

/-- A field that must be present. -/
def required {α : Type} (field : Option α) : Except Fault α :=
  field.elim (.error .mistyped) .ok

/-- Decodes a whole text. -/
def decodeText {α : Type} (decode : Decoder α) (text : String) : Except Fault α := do
  let document := read text
  let result ← decode document.value
  match document.after with
  | some fault => .error fault
  | none => .ok result

/-- Decodes a value that is already well formed: all that can be wrong is its shape. -/
def decodeValue {α : Type} (decode : Decoder α) (value : Json) : Except Fault α :=
  (decode value.settle).mapError fun _ => .mistyped

end Clarion.Json
