import Clarion.Proofs.Forest
import Mathlib.Algebra.Group.Nat.Defs

/-! Groups of named members. In the finished outline the members of a class's properties and of a
map's functions go by name, and those that bear one name by age; all other symbols stand in the
order in which they were added. Sorted members bear their places as texts of four digits or more,
so the texts tell the order as long as four digits are enough. -/
namespace Clarion.Outline

/-! ### Numbers of four digits -/

/-- The text writes the number in decimal, with zeros in front of fewer than four digits. -/
structure WritesFourDigits (text : String) (n : Nat) : Prop where
  digits : ∀ c ∈ text.toList, c.isDigit
  value : Nat.ofDigitChars 10 text.toList 0 = n
  width : text.length = max 4 (Nat.toDigits 10 n).length

theorem toNat_of_isDigit {c : Char} (digit : c.isDigit) : 48 ≤ c.toNat ∧ c.toNat ≤ 57 := by
  simpa [Char.isDigit, UInt32.le_iff_toNat_le] using digit

/-- A digit in front of others counts for its own place. -/
theorem ofDigitChars_digit (c : Char) (rest : List Char) : Nat.ofDigitChars 10 (c :: rest) 0 =
    10 ^ rest.length * (c.toNat - 48) + Nat.ofDigitChars 10 rest 0 := by
  rw [Nat.ofDigitChars_cons, Nat.ofDigitChars_eq_ofDigitChars_zero, Nat.mul_zero, Nat.zero_add]
  rfl

theorem ofDigitChars_lt {chars : List Char} (digits : ∀ c ∈ chars, c.isDigit) :
    Nat.ofDigitChars 10 chars 0 < 10 ^ chars.length := by
  induction chars with
  | nil => simp
  | cons c rest ih =>
    obtain ⟨digit, others⟩ := List.forall_mem_cons.mp digits
    have below := ih others
    have most : 10 ^ rest.length * (c.toNat - 48) ≤ 10 ^ rest.length * 9 :=
      Nat.mul_le_mul_left _ (by have := toNat_of_isDigit digit; omega)
    rw [ofDigitChars_digit, List.length_cons, Nat.pow_succ]
    omega

/-- Digits of the same number compare as the numbers that they write. -/
theorem digits_lt_iff {left right : List Char} (same : left.length = right.length)
    (leftDigits : ∀ c ∈ left, c.isDigit) (rightDigits : ∀ c ∈ right, c.isDigit) :
    left < right ↔ Nat.ofDigitChars 10 left 0 < Nat.ofDigitChars 10 right 0 := by
  induction left generalizing right with
  | nil =>
    obtain rfl := List.eq_nil_of_length_eq_zero same.symm
    simp
  | cons c left ih =>
    cases right with
    | nil => cases same
    | cons d right =>
      obtain ⟨cDigit, leftDigits⟩ := List.forall_mem_cons.mp leftDigits
      obtain ⟨dDigit, rightDigits⟩ := List.forall_mem_cons.mp rightDigits
      have same := Nat.succ.inj same
      have leftBound := ofDigitChars_lt leftDigits
      have rightBound := ofDigitChars_lt rightDigits
      have cBounds := toNat_of_isDigit cDigit
      have dBounds := toNat_of_isDigit dDigit
      have order : c < d ↔ c.toNat < d.toNat := Char.lt_def.trans UInt32.lt_iff_toNat_lt
      rw [List.cons_lt_cons_iff, ih same leftDigits rightDigits, ofDigitChars_digit,
        ofDigitChars_digit, ← Char.toNat_inj, order, ← same]
      rw [← same] at rightBound
      generalize 10 ^ left.length = scale at leftBound rightBound
      -- The first digits decide unless they are the same, since the others weigh less than one.
      rcases Nat.lt_trichotomy c.toNat d.toNat with less | equal | greater
      · have ahead : scale * (c.toNat - 48) + scale ≤ scale * (d.toNat - 48) := by
          rw [← Nat.mul_succ]
          exact Nat.mul_le_mul_left _ (by omega)
        omega
      · rw [equal]
        omega
      · have ahead : scale * (d.toNat - 48) + scale ≤ scale * (c.toNat - 48) := by
          rw [← Nat.mul_succ]
          exact Nat.mul_le_mul_left _ (by omega)
        omega

theorem fourDigits_writes (n : Nat) : WritesFourDigits (Arena.fourDigits n) n := by
  have chars : (Arena.fourDigits n).toList =
      List.replicate (4 - (Nat.toDigits 10 n).length) '0' ++ Nat.toDigits 10 n := by
    simp [Arena.fourDigits, ← String.length_toList]
  refine ⟨?_, ?_, ?_⟩
  · intro c member
    rw [chars, List.mem_append] at member
    rcases member with zero | digit
    · rw [(List.mem_replicate.mp zero).2]
      rfl
    · exact Nat.isDigit_of_mem_toDigits (by decide) (by decide) digit
  · rw [chars, Nat.ofDigitChars_append, Nat.ofDigitChars_replicate_zero, Nat.mul_zero,
      Nat.ofDigitChars_ten_toDigits]
  · rw [← String.length_toList, chars, List.length_append, List.length_replicate]
    omega

/-- Numbers that four digits can write compare as their texts. -/
theorem WritesFourDigits.lt_iff {left right : String} {m n : Nat} (first : WritesFourDigits left m)
    (second : WritesFourDigits right n) (small : m < 10000) (smallToo : n < 10000) :
    left < right ↔ m < n := by
  have width {text : String} {n : Nat} (writes : WritesFourDigits text n) (small : n < 10000) :
      text.toList.length = 4 := by
    have short : (Nat.toDigits 10 n).length ≤ 4 :=
      (Nat.length_toDigits_le_iff (by decide) (by decide)).mpr small
    rw [String.length_toList, writes.width]
    omega
  have same := (width first small).trans (width second smallToo).symm
  rw [String.lt_iff, digits_lt_iff same first.digits second.digits, first.value, second.value]

/-- Two of the texts compare as the places where they stand. -/
def AgreesWithPlaces (texts : List String) : Prop :=
  ∀ (first second : Nat) left right, texts[first]? = some left → texts[second]? = some right →
    (left < right ↔ first < second)

/-- The texts of the numbers from zero on. -/
def placeTexts (count : Nat) : List String :=
  (List.range count).map Arena.fourDigits

theorem getElem?_placeTexts {count place : Nat} {text : String} :
    (placeTexts count)[place]? = some text ↔ place < count ∧ Arena.fourDigits place = text := by
  by_cases inside : place < count
  · simp [placeTexts, inside]
  · simp [placeTexts, inside]

/-- The texts agree with their places up to the last number of four digits; the number after it
comes before that one. -/
theorem placeTexts_agree_iff (count : Nat) :
    AgreesWithPlaces (placeTexts count) ↔ count ≤ 10000 := by
  constructor
  · intro agrees
    by_contra long
    have last := getElem?_placeTexts.mpr ⟨show 9999 < count by omega, rfl⟩
    have next := getElem?_placeTexts.mpr ⟨show 10000 < count by omega, rfl⟩
    have before := (agrees 9999 10000 _ _ last next).mpr (by decide)
    exact absurd before (by decide)
  · intro short first second left right foundLeft foundRight
    obtain ⟨inLeft, rfl⟩ := getElem?_placeTexts.mp foundLeft
    obtain ⟨inRight, rfl⟩ := getElem?_placeTexts.mp foundRight
    exact (fourDigits_writes first).lt_iff (fourDigits_writes second) (by omega) (by omega)

namespace Arena

variable {arena : Arena} {id : NodeId} {node : Node}

/-- The nodes that were added right below a node, from the first to the last. -/
def addedUnder (arena : Arena) (id : NodeId) : List NodeId :=
  (List.range arena.nodes.size).filter fun other =>
    (arena.node? other).bind Node.parent == some id

theorem Arranged.children_eq (arranged : arena.Arranged) (found : arena.node? id = some node) :
    node.children = arena.addedUnder id := by
  have ordered : (arena.addedUnder id).Pairwise (· < ·) := List.pairwise_lt_range.filter _
  have same (other : NodeId) : other ∈ node.children ↔ other ∈ arena.addedUnder id := by
    rw [addedUnder, List.mem_filter, List.mem_range, beq_iff_eq, Option.bind_eq_some_iff]
    constructor
    · intro member
      obtain ⟨lower, foundLower, parent⟩ := arranged.child found member
      exact ⟨holds_of_node? foundLower, lower, foundLower, parent⟩
    · rintro ⟨-, lower, foundLower, parent⟩
      obtain ⟨-, upper, foundUpper, member⟩ := arranged.toWellFormed.parent foundLower parent
      cases foundUpper.symm.trans found
      exact member
  have perm : node.children.Perm (arena.addedUnder id) :=
    (List.perm_ext_iff_of_nodup ((arranged.children found).imp Nat.ne_of_lt)
      (ordered.imp Nat.ne_of_lt)).mpr same
  exact perm.eq_of_pairwise (fun _ _ _ _ less greater => absurd less (Nat.lt_asymm greater))
    (arranged.children found) ordered

/-- Whatever operations build an arena, in its finished outline the members of properties and of
functions are all that were added to the group, by name, and by age where names agree; each bears
its place in decimal, and these texts compare as the places just when there are ten thousand members
at most. All other nodes have the nodes below them in the order in which they were added. -/
theorem members_go_by_name {operations : List Operation} (built : build? operations = some arena) :
    ∃ forest, arena.IsForest forest ∧
      ∀ tree ∈ forest.flatMap Numbered.within, ∀ node, arena.node? tree.id = some node →
        (node.group = some .properties ∨ node.group = some .functions →
          (tree.children.map Numbered.id).Perm (arena.addedUnder tree.id) ∧
          tree.children.Pairwise Numbered.GoesBefore ∧
          ∃ texts, tree.children.map (·.info.sortText) = texts.map some ∧
            (∀ place text, texts[place]? = some text → WritesFourDigits text place) ∧
            (AgreesWithPlaces texts ↔ tree.children.length ≤ 10000)) ∧
        (¬(node.group = some .properties ∨ node.group = some .functions) →
          tree.children.map Numbered.id = arena.addedUnder tree.id) := by
  have arranged := (carry_operations .empty built).1
  obtain ⟨forest, isForest, orders⟩ := arranged.exists_sorted_forest
  refine ⟨forest, isForest, fun tree inside node found => ?_⟩
  obtain ⟨keeps, sorts⟩ := orders tree inside
  have sorting : node.group.any Group.sortsChildren ↔
      node.group = some .properties ∨ node.group = some .functions := by
    rcases node.group with _ | _ | _ | _ <;> simp [Group.sortsChildren]
  rw [← sorting, ← arranged.children_eq found]
  constructor
  · intro sorted
    obtain ⟨again, foundAgain, -, children⟩ := (isForest.shows tree inside).node
    cases foundAgain.symm.trans found
    obtain ⟨ordered, texts⟩ := sorts node found sorted
    refine ⟨children, ordered, placeTexts tree.children.length, ?_, ?_, placeTexts_agree_iff _⟩
    · rw [texts, placeTexts, List.map_map]
      rfl
    · intro place text here
      obtain ⟨-, rfl⟩ := getElem?_placeTexts.mp here
      exact fourDigits_writes place
  · intro plain
    exact keeps node found (by simpa using plain)

/-- A class with three properties, two of which have the same name up to letter case, and methods
that come in no order. -/
def namesakes : List Operation :=
  let info (name : String) (kind : Kind) (line : Nat) : Info :=
    { name, detail := "", kind
      range := ⟨⟨line, 0⟩, ⟨line, 20⟩⟩
      selection := ⟨⟨line, 0⟩, ⟨line, 5⟩⟩ }
  [.add none (info "Shape" .classDecl 0), .ensureGroup 0 .properties,
    .add (some 1) (info "Width  LONG" .property 1), .add (some 1) (info "HEIGHT  LONG" .property 2),
    .add (some 1) (info "Height  STRING(9)" .property 3), .ensureGroup 0 .methods,
    .add (some 5) (info "Move ()" .method 4), .add (some 5) (info "Draw ()" .method 5)]

theorem namesakes_go_by_age : ∃ arena, build? namesakes = some arena ∧
    ∃ forest, arena.IsForest forest ∧
      (∃ tree ∈ forest.flatMap Numbered.within, tree.id = 1 ∧
        (tree.children.map Numbered.id).Perm [2, 3, 4] ∧
        tree.children.Pairwise Numbered.GoesBefore ∧
        ∃ texts, tree.children.map (·.info.sortText) = texts.map some ∧ AgreesWithPlaces texts) ∧
      ∃ tree ∈ forest.flatMap Numbered.within, tree.id = 5 ∧
        tree.children.map Numbered.id = [6, 7] := by
  refine ⟨_, rfl, ?_⟩
  obtain ⟨forest, isForest, orders⟩ := members_go_by_name (show build? namesakes = some _ from rfl)
  have shown (id : NodeId) (held : id < 8) :
      ∃ tree ∈ forest.flatMap Numbered.within, tree.id = id :=
    List.mem_map.mp (isForest.once.mem_iff.mpr (List.mem_range.mpr held))
  refine ⟨forest, isForest, ?_, ?_⟩
  · obtain ⟨⟨_, info, children⟩, inside, rfl⟩ := shown 1 (by decide)
    obtain ⟨members, ordered, texts, bear, -, agrees⟩ := (orders _ inside _ rfl).1 (.inl rfl)
    have members : (children.map Numbered.id).Perm [2, 3, 4] := members
    have three : children.length = 3 := by simpa using members.length_eq
    exact ⟨_, inside, rfl, members, ordered, texts, bear, agrees.mpr (three.trans_le (by decide))⟩
  · obtain ⟨⟨_, info, children⟩, inside, rfl⟩ := shown 5 (by decide)
    exact ⟨_, inside, rfl, (orders _ inside _ rfl).2 (by rintro (⟨⟨⟩⟩ | ⟨⟨⟩⟩))⟩

end Arena

end Clarion.Outline
