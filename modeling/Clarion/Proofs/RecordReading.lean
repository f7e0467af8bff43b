import Clarion.Json.Decode
import Mathlib.Data.List.Forall2
import Mathlib.Data.List.Nodup
import Mathlib.Data.List.Perm.Basic

/-! Reading records from objects. What a record is read to depends neither on the order of the
members nor on members that no slot asks for. While the members of an object go by in some order,
the record is known up to the keys seen so far: this is what each member carries on. -/
namespace Clarion.Json

variable {σ : Type} {slots : List (Slot σ)} {members fewer : List (String × Json)}
  {filled : List String} {record : σ} {stop : Option Stop} {value : Json}

/-- The keys of members, in order. -/
def keys (members : List (String × Json)) : List String :=
  members.map Prod.fst

@[simp] theorem keys_nil : keys [] = [] := rfl

@[simp] theorem keys_cons (member : String × Json) (members : List (String × Json)) :
    keys (member :: members) = member.1 :: keys members := rfl

@[simp] theorem keys_append (front back : List (String × Json)) :
    keys (front ++ back) = keys front ++ keys back :=
  List.map_append

/-! ### Order of members -/

/-- The second value differs from the first at most in the order of object members, at any depth. -/
inductive Reorders : Json → Json → Prop where
  | refl (value : Json) : Reorders value value
  | arr {items others : List Json} {stop : Option Fault}
      (each : List.Forall₂ Reorders items others) : Reorders (.arr items stop) (.arr others stop)
  | obj {members others moved : List (String × Json)} {stop : Option Stop}
      (same : keys members = keys others)
      (each : List.Forall₂ Reorders (members.map Prod.snd) (others.map Prod.snd))
      (order : others.Perm moved) : Reorders (.obj members stop) (.obj moved stop)

namespace Reorders

theorem of_str {text : String} (same : Reorders (.str text) value) : value = .str text := by
  cases same
  rfl

theorem of_int {number : Int} (same : Reorders (.int number) value) : value = .int number := by
  cases same
  rfl

theorem of_bool {truth : Bool} (same : Reorders (.bool truth) value) : value = .bool truth := by
  cases same
  rfl

theorem of_arr {items : List Json} {stop : Option Fault}
    (same : Reorders (.arr items stop) value) :
    ∃ others, value = .arr others stop ∧ List.Forall₂ Reorders items others := by
  cases same with
  | refl => exact ⟨items, rfl, List.forall₂_same.mpr fun item _ => .refl item⟩
  | arr each => exact ⟨_, rfl, each⟩

/-- Where keys agree and values are reordered, each member goes back to one of the same key. -/
theorem member_of_mem {others : List (String × Json)} (same : keys members = keys others)
    (each : List.Forall₂ Reorders (members.map Prod.snd) (others.map Prod.snd)) :
    ∀ other ∈ others, ∃ member ∈ members, member.1 = other.1 ∧ Reorders member.2 other.2 := by
  induction others generalizing members with
  | nil => exact fun _ here => absurd here List.not_mem_nil
  | cons first others ih =>
    cases members with
    | nil => cases same
    | cons member members =>
      obtain ⟨here, later⟩ := List.cons.inj same
      obtain ⟨alike, each⟩ := List.forall₂_cons.mp each
      intro other chosen
      rcases List.mem_cons.mp chosen with rfl | chosen
      · exact ⟨member, List.mem_cons_self, here, alike⟩
      · obtain ⟨member, before, found⟩ := ih later each other chosen
        exact ⟨member, List.mem_cons_of_mem _ before, found⟩

theorem of_obj (same : Reorders (.obj members stop) value) :
    ∃ moved, value = .obj moved stop ∧ (keys moved).Perm (keys members) ∧
      ∀ other ∈ moved, ∃ member ∈ members, member.1 = other.1 ∧ Reorders member.2 other.2 := by
  cases same with
  | refl => exact ⟨members, rfl, .refl _, fun other here => ⟨other, here, rfl, .refl _⟩⟩
  | @obj _ others moved _ same each order =>
    have sameKeys : (keys moved).Perm (keys members) := same ▸ order.symm.map Prod.fst
    exact ⟨moved, rfl, sameKeys, fun other here =>
      member_of_mem same each other (order.mem_iff.mpr here)⟩

end Reorders

/-! ### Slots -/

theorem find?_of_key {slot : Slot σ} (distinct : (slots.map Slot.key).Nodup) (here : slot ∈ slots) :
    slots.find? (·.key == slot.key) = some slot := by
  cases found : slots.find? (·.key == slot.key) with
  | none => exact absurd (List.find?_eq_none.mp found slot here) (by simp)
  | some other =>
    have same : other.key = slot.key := by simpa using List.find?_some found
    rw [List.inj_on_of_nodup_map distinct (List.mem_of_find?_eq_some found) here same]

/-- The value takes the record from what is known up to some keys to what is known with the key of
the slot as well. -/
def Slot.Adds (upTo : List String → σ) (slot : Slot σ) (value : Json) : Prop :=
  ∀ known, slot.fill value (upTo known) = .ok (upTo (slot.key :: known))

/-- A slot of the key takes up the member. -/
def Adds (slots : List (Slot σ)) (upTo : List String → σ) (member : String × Json) : Prop :=
  ∃ slot ∈ slots, slot.key = member.1 ∧ slot.Adds upTo member.2

/-- Each member adds its key to what is known, whichever keys came before it. -/
theorem fillMembers_adds {upTo : List String → σ} (distinct : (slots.map Slot.key).Nodup)
    (adds : ∀ member ∈ members, Adds slots upTo member) (once : (keys members).Nodup)
    (fresh : ∀ key ∈ keys members, key ∉ filled) :
    fillMembers slots filled (upTo filled) members =
      .ok (upTo ((keys members).reverse ++ filled)) := by
  induction members generalizing filled with
  | nil => rfl
  | cons member rest ih =>
    obtain ⟨key, value⟩ := member
    obtain ⟨slot, here, rfl, added⟩ := adds (key, value) List.mem_cons_self
    have unfilled : filled.contains slot.key = false := by
      simpa using fresh slot.key List.mem_cons_self
    have once : slot.key ∉ keys rest ∧ (keys rest).Nodup := List.nodup_cons.mp once
    have freshRest : ∀ other ∈ keys rest, other ∉ slot.key :: filled := by
      intro other member
      rw [List.mem_cons, not_or]
      exact ⟨fun same => once.1 (same ▸ member), fresh other (List.mem_cons_of_mem _ member)⟩
    have later := ih (fun other member => adds other (List.mem_cons_of_mem _ member)) once.2 freshRest
    rw [fillMembers, find?_of_key distinct here]
    simp only [unfilled, Bool.false_eq_true, if_false, added filled]
    change fillMembers slots (slot.key :: filled) (upTo (slot.key :: filled)) rest = _
    rw [later]
    simp [keys]

/-! ### Repeated keys -/

/-- Where no key comes twice and the values are settled, nothing is left to settle. -/
theorem settleMembers_eq (once : (keys members).Nodup)
    (settled : ∀ member ∈ members, member.2.settle = member.2) : settleMembers members = members := by
  induction members with
  | nil => rfl
  | cons member rest ih =>
    obtain ⟨key, value⟩ := member
    have once : key ∉ keys rest ∧ (keys rest).Nodup := List.nodup_cons.mp once
    have later := ih once.2 fun other here => settled other (List.mem_cons_of_mem _ here)
    have here : value.settle = value := settled (key, value) List.mem_cons_self
    have absent : rest.any (·.1 == key) = false := by
      refine List.any_eq_false.mpr fun other here same => once.1 ?_
      exact List.mem_map.mpr ⟨other, here, by simpa using same⟩
    rw [settleMembers]
    simp [later, absent, here]

theorem settleItems_eq {items : List Json} (settled : ∀ item ∈ items, item.settle = item) :
    settleItems items = items := by
  induction items with
  | nil => rfl
  | cons item rest ih =>
    rw [settleItems, settled item List.mem_cons_self,
      ih fun other here => settled other (List.mem_cons_of_mem _ here)]

/-! ### Reading back -/

/-- In whatever order the members inside stand, the value of the member is taken up by a slot of its
key, and holds no key twice. -/
def Reads (slots : List (Slot σ)) (upTo : List String → σ) (member : String × Json) : Prop :=
  ∀ other, member.2.Reorders other → Adds slots upTo (member.1, other) ∧ other.settle = other

namespace Reads

variable {upTo : List String → σ} {key : String}

theorem str {text : String} (adds : Adds slots upTo (key, .str text)) :
    Reads slots upTo (key, .str text) := by
  intro other same
  obtain rfl := same.of_str
  exact ⟨adds, rfl⟩

theorem int {number : Int} (adds : Adds slots upTo (key, .int number)) :
    Reads slots upTo (key, .int number) := by
  intro other same
  obtain rfl := same.of_int
  exact ⟨adds, rfl⟩

theorem bool {truth : Bool} (adds : Adds slots upTo (key, .bool truth)) :
    Reads slots upTo (key, .bool truth) := by
  intro other same
  obtain rfl := same.of_bool
  exact ⟨adds, rfl⟩

end Reads

/-- A reordered object fills the record just as far as the keys of the object go, and holds no key
twice. -/
theorem fillMembers_reordered {upTo : List String → σ} (distinct : (slots.map Slot.key).Nodup)
    (once : (keys members).Nodup) (reads : ∀ member ∈ members, Reads slots upTo member)
    (same : Reorders (.obj members stop) value) :
    ∃ moved known, value = .obj moved stop ∧ (∀ key, key ∈ known ↔ key ∈ keys members) ∧
      fillMembers slots [] (upTo []) moved = .ok (upTo known) ∧ value.settle = value := by
  obtain ⟨moved, rfl, sameKeys, back⟩ := same.of_obj
  have onceMoved := sameKeys.nodup_iff.mpr once
  have readsMoved : ∀ other ∈ moved, Adds slots upTo other ∧ other.2.settle = other.2 := by
    intro other here
    obtain ⟨member, before, sameKey, alike⟩ := back other here
    have found := reads member before other.2 alike
    rwa [sameKey] at found
  refine ⟨moved, (keys moved).reverse ++ [], rfl, ?_, ?_, ?_⟩
  · intro key
    rw [List.append_nil, List.mem_reverse]
    exact sameKeys.mem_iff
  · exact fillMembers_adds distinct (fun other here => (readsMoved other here).1) onceMoved (by simp)
  · rw [settle, settleMembers_eq onceMoved fun other here => (readsMoved other here).2]

theorem fillRecord_reordered {upTo : List String → σ} (distinct : (slots.map Slot.key).Nodup)
    (once : (keys members).Nodup) (reads : ∀ member ∈ members, Reads slots upTo member)
    (same : Reorders (.obj members) value) :
    ∃ known, (∀ key, key ∈ known ↔ key ∈ keys members) ∧
      fillRecord slots (upTo []) value = .ok (upTo known) ∧ value.settle = value := by
  obtain ⟨moved, known, rfl, all, filled, settled⟩ :=
    fillMembers_reordered distinct once reads same
  refine ⟨known, all, ?_, settled⟩
  rw [fillRecord, filled]
  rfl

/-- However the members of the written form are ordered, the decoder comes to the result, and the
value holds no key twice. -/
def ReadsBack {α : Type} (decode : Decoder α) (written : Json) (result : α) : Prop :=
  ∀ value, written.Reorders value → decode value = .ok result ∧ value.settle = value

theorem ReadsBack.decodeValue {α : Type} {decode : Decoder α} {written : Json} {result : α}
    (back : ReadsBack decode written result) (same : written.Reorders value) :
    Json.decodeValue decode value = .ok result := by
  obtain ⟨read, settled⟩ := back value same
  rw [Json.decodeValue, settled, read]
  rfl

/-! ### Single values -/

theorem decodeNat32_int {number : Nat} (fits : number < 4294967296) :
    decodeNat32 (.int number) = .ok number := by
  rw [decodeNat32, if_pos ⟨Int.natCast_nonneg number, by omega⟩, Int.toNat_natCast]

theorem decodeString_str (text : String) : decodeString (.str text) = .ok text := rfl

theorem decodeBool_bool (truth : Bool) : decodeBool (.bool truth) = .ok truth := rfl

theorem decodeOption_bool (truth : Bool) :
    decodeOption decodeBool (.bool truth) = .ok (some truth) := rfl

theorem decodeOption_str {α : Type} {decode : Decoder α} {text : String} {result : α}
    (read : decode (.str text) = .ok result) : decodeOption decode (.str text) = .ok (some result) := by
  rw [decodeOption, read]
  · rfl
  all_goals nofun

theorem decodeOption_int {α : Type} {decode : Decoder α} {number : Int} {result : α}
    (read : decode (.int number) = .ok result) :
    decodeOption decode (.int number) = .ok (some result) := by
  rw [decodeOption, read]
  · rfl
  all_goals nofun

theorem decodeItems_map {α : Type} {decode : Decoder α} {encode : α → Json}
    (inverse : ∀ value, decode (encode value) = .ok value) (values : List α) :
    decodeItems decode (values.map encode) = .ok values := by
  induction values with
  | nil => rfl
  | cons value rest ih =>
    simp only [List.map_cons, decodeItems, inverse, ih]
    rfl

theorem decodeList_strings (texts : List String) :
    decodeList decodeString (.arr (texts.map .str)) = .ok texts := by
  rw [decodeList, decodeItems_map decodeString_str]
  rfl

theorem Reads.strings {σ : Type} {slots : List (Slot σ)} {upTo : List String → σ} {key : String}
    {texts : List String} (adds : Adds slots upTo (key, .arr (texts.map .str))) :
    Reads slots upTo (key, .arr (texts.map .str)) := by
  intro other same
  obtain ⟨others, rfl, each⟩ := same.of_arr
  have equal : others = texts.map .str := by
    clear same adds
    induction texts generalizing others with
    | nil => exact List.forall₂_nil_left_iff.mp each
    | cons text texts ih =>
      obtain ⟨first, later, alike, rest, rfl⟩ := List.forall₂_cons_left_iff.mp each
      rw [alike.of_str, ih later rest, List.map_cons]
  rw [equal]
  refine ⟨adds, ?_⟩
  rw [settle, settleItems_eq (by simp [settle])]

theorem keyIf_sublist (set : Prop) [Decidable set] (key : String) :
    (if set then [key] else []).Sublist [key] := by
  split
  · exact .refl _
  · exact List.nil_sublist _

/-- An option that is left out where it is absent. -/
theorem ite_isSome {α : Type} (option : Option α) :
    (if option.isSome then option else none) = option := by
  cases option <;> rfl

/-- A list that is left out where it is empty. -/
theorem ite_nil {α : Type} (list : List α) [Decidable (list = [])] :
    (if list = [] then [] else list) = list := by
  split <;> simp_all

/-! ### Members that no slot asks for -/

/-- The second members are the first ones without some whose keys are no slot's, each of the others
with a value that its slot takes in the same way. -/
inductive SameFields (slots : List (Slot σ)) :
    List (String × Json) → List (String × Json) → Prop where
  | nil : SameFields slots [] []
  | extra {key : String} {value : Json} {members fewer : List (String × Json)}
      (unknown : key ∉ slots.map Slot.key) (whole : value.skip = none)
      (rest : SameFields slots members fewer) : SameFields slots ((key, value) :: members) fewer
  | field {key : String} {value other : Json} {members fewer : List (String × Json)}
      (known : key ∈ slots.map Slot.key)
      (alike : ∀ slot ∈ slots, slot.key = key → slot.fill other = slot.fill value)
      (rest : SameFields slots members fewer) :
      SameFields slots ((key, value) :: members) ((key, other) :: fewer)

theorem fillMembers_sameFields (same : SameFields slots members fewer) :
    fillMembers slots filled record fewer = fillMembers slots filled record members := by
  induction same generalizing filled record with
  | nil => rfl
  | @extra key value members fewer unknown whole _ ih =>
    have noSlot : slots.find? (·.key == key) = none := by
      refine List.find?_eq_none.mpr fun slot here same => unknown ?_
      exact List.mem_map.mpr ⟨slot, here, by simpa using same⟩
    rw [ih, fillMembers, noSlot]
    simp only [whole]
  | @field key value other members fewer known alike _ ih =>
    rw [fillMembers, fillMembers]
    cases found : slots.find? (·.key == key) with
    | none =>
      obtain ⟨slot, here, same⟩ := List.mem_map.mp known
      exact absurd (List.find?_eq_none.mp found slot here) (by simp [same])
    | some slot =>
      have sameKey : slot.key = key := by simpa using List.find?_some found
      simp only [alike slot (List.mem_of_find?_eq_some found) sameKey, ih]

theorem skipMembers_cons {key : String} :
    skipMembers ((key, value) :: members) = none ↔ value.skip = none ∧ skipMembers members = none := by
  rw [skipMembers, Option.or_eq_none_iff]

theorem skipItems_cons {items : List Json} :
    skipItems (value :: items) = none ↔ value.skip = none ∧ skipItems items = none := by
  rw [skipItems, Option.or_eq_none_iff]

theorem skip_obj (whole : (obj members stop).skip = none) : skipMembers members = none := by
  rw [skip, Option.or_eq_none_iff] at whole
  exact whole.1

theorem skip_arr {items : List Json} {stop : Option Fault} (whole : (arr items stop).skip = none) :
    skipItems items = none := by
  rw [skip, Option.or_eq_none_iff] at whole
  exact whole.1

/-- An object with the members of these keys only, each value passed through `inside`. -/
def onlyFields (fields : List String) (inside : Json → Json) : Json → Json
  | .obj members stop =>
    .obj ((members.filter fun member => fields.contains member.1).map fun member =>
      (member.1, inside member.2)) stop
  | other => other

theorem sameFields_filter {inside : Json → Json}
    (blind : ∀ slot ∈ slots, ∀ value, value.skip = none → slot.fill (inside value) = slot.fill value)
    (whole : skipMembers members = none) :
    SameFields slots members
      ((members.filter fun member => (slots.map Slot.key).contains member.1).map fun member =>
        (member.1, inside member.2)) := by
  induction members with
  | nil => exact .nil
  | cons member rest ih =>
    obtain ⟨key, value⟩ := member
    obtain ⟨here, later⟩ := skipMembers_cons.mp whole
    by_cases known : key ∈ slots.map Slot.key
    · rw [List.filter_cons_of_pos (by simpa using known)]
      exact .field known (fun slot member _ => blind slot member value here) (ih later)
    · rw [List.filter_cons_of_neg (by simpa using known)]
      exact .extra known here (ih later)

/-- A record read from an object sees nothing but its own fields. -/
theorem fillRecord_onlyFields (inside : Json → Json)
    (blind : ∀ slot ∈ slots, ∀ value, value.skip = none → slot.fill (inside value) = slot.fill value)
    (whole : value.skip = none) :
    fillRecord slots record (onlyFields (slots.map Slot.key) inside value) =
      fillRecord slots record value := by
  cases value with
  | obj members stop =>
    have same := sameFields_filter blind (skip_obj whole)
    rw [onlyFields, fillRecord, fillRecord, fillMembers_sameFields same]
  | _ => rfl

/-- By position, each slot sees its item only. -/
theorem fillItems_map {inside : Json → Json} {items : List Json}
    (blind : ∀ slot ∈ slots, ∀ value, value.skip = none → slot.fill (inside value) = slot.fill value)
    (whole : skipItems items = none) :
    fillItems slots record (items.map inside) = fillItems slots record items := by
  induction items generalizing slots record with
  | nil => cases slots <;> rfl
  | cons item rest ih =>
    obtain ⟨here, later⟩ := skipItems_cons.mp whole
    cases slots with
    | nil => rfl
    | cons slot slots =>
      have blindLater := fun other member => blind other (List.mem_cons_of_mem slot member)
      simp only [List.map_cons, fillItems, blind slot List.mem_cons_self item here,
        ih blindLater later]

end Clarion.Json
