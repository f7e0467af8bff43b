import Clarion.Mask
import Clarion.Proofs.NameCase
import Mathlib.Data.List.Induction

/-! Masks of a star and plain characters. Matching keeps the tails of the name that may be left over,
so a star followed by characters accepts the names that end in them, up to letter case; and since no
byte of a longer character is one of ASCII, the bytes of a name end in those of ASCII characters just
when the name ends in the characters. -/
namespace Clarion.Mask

variable {rests : Rests} {rest bytes literal : List UInt8} {chars : List Char}

/-! ### What is left over -/

theorem mem_tails : rest ∈ tails bytes ↔ rest <:+ bytes := by
  induction bytes with
  | nil => simp [tails]
  | cons byte bytes ih => rw [tails, List.mem_cons, ih, List.suffix_cons_iff]

theorem mem_afterByte {holds : UInt8 → Bool} :
    rest ∈ afterByte holds rests ↔ ∃ byte, holds byte ∧ byte :: rest ∈ rests := by
  rw [afterByte, List.mem_filterMap]
  constructor
  · rintro ⟨_ | ⟨byte, left⟩, listed, kept⟩
    · cases kept
    · obtain ⟨held, same⟩ := Option.ite_none_right_eq_some.mp kept
      cases same
      exact ⟨byte, held, listed⟩
  · rintro ⟨byte, held, listed⟩
    exact ⟨byte :: rest, listed, if_pos held⟩

/-- A literal takes its bytes off the front, up to letter case. -/
theorem mem_afterLiteral : rest ∈ afterLiteral literal rests ↔
    ∃ front, front.map lowerByte = literal.map lowerByte ∧ front ++ rest ∈ rests := by
  induction literal generalizing rests with
  | nil => simp [afterLiteral]
  | cons byte literal ih =>
    change rest ∈ afterLiteral literal (afterByte (sameByte byte) rests) ↔ _
    rw [ih]
    constructor
    · rintro ⟨front, same, listed⟩
      obtain ⟨first, alike, listed⟩ := mem_afterByte.mp listed
      refine ⟨first :: front, ?_, listed⟩
      rw [List.map_cons, same, List.map_cons, beq_iff_eq.mp alike]
    · rintro ⟨_ | ⟨first, front⟩, same, listed⟩
      · cases same
      · obtain ⟨alike, same⟩ := List.cons.inj same
        exact ⟨front, same, mem_afterByte.mpr ⟨first, beq_iff_eq.mpr alike.symm, listed⟩⟩

/-- Literal characters take their bytes off the front. -/
theorem mem_advanceAll_literals : rest ∈ advanceAll (chars.map .literal) rests ↔
    ∃ front, front.map lowerByte = (chars.flatMap String.utf8EncodeChar).map lowerByte ∧
      front ++ rest ∈ rests := by
  induction chars generalizing rests with
  | nil => simp [advanceAll]
  | cons c chars ih =>
    rw [List.map_cons, advanceAll, advance, ih, List.flatMap_cons, List.map_append]
    constructor
    · rintro ⟨back, same, listed⟩
      obtain ⟨front, alike, listed⟩ := mem_afterLiteral.mp listed
      refine ⟨front ++ back, ?_, by rwa [List.append_assoc]⟩
      rw [List.map_append, alike, same]
    · rintro ⟨whole, same, listed⟩
      obtain ⟨front, back, rfl, alike, same⟩ := List.map_eq_append_iff.mp same
      exact ⟨back, same, mem_afterLiteral.mpr ⟨front, alike, by rwa [← List.append_assoc]⟩⟩

theorem nil_mem_afterAny : [] ∈ afterAny rests ↔ rests ≠ [] := by
  cases rests with
  | nil => simp [afterAny]
  | cons longest others => simp [afterAny, mem_tails]

/-! ### Bytes of characters -/

theorem utf8EncodeChar_ascii {c : Char} (ascii : c.toNat < 128) :
    String.utf8EncodeChar c = [UInt8.ofNat c.toNat] :=
  if_pos (Nat.le_of_lt_succ ascii)

/-- The last byte of a longer character is none of ASCII. -/
theorem utf8EncodeChar_long {c : Char} (long : ¬c.toNat < 128) :
    ∃ front last, String.utf8EncodeChar c = front ++ [last] ∧ 128 ≤ last.toNat := by
  have tail : 128 ≤ (UInt8.ofNat (c.toNat % 64 + 128)).toNat := by
    rw [UInt8.toNat_ofNat']
    omega
  have several : ¬c.val.toNat ≤ 127 := fun few => long (Nat.lt_succ_of_le few)
  unfold String.utf8EncodeChar
  simp only [several, ↓reduceIte]
  split
  · exact ⟨[_], _, rfl, tail⟩
  · split
    · exact ⟨[_, _], _, rfl, tail⟩
    · exact ⟨[_, _, _], _, rfl, tail⟩

theorem toNat_lowerByte (byte : UInt8) : (lowerByte byte).toNat =
    if 65 ≤ byte.toNat ∧ byte.toNat ≤ 90 then byte.toNat + 32 else byte.toNat := by
  have capital : (0x41 ≤ byte && byte ≤ 0x5A) = true ↔ 65 ≤ byte.toNat ∧ byte.toNat ≤ 90 := by
    rw [Bool.and_eq_true, decide_eq_true_iff, decide_eq_true_iff, UInt8.le_iff_toNat_le,
      UInt8.le_iff_toNat_le]
    rfl
  rw [lowerByte]
  split
  next isCapital =>
    rw [if_pos (capital.mp isCapital), UInt8.toNat_add]
    have := (capital.mp isCapital).2
    change (byte.toNat + 32) % 256 = _
    omega
  next isOther => rw [if_neg (mt capital.mpr isOther)]

/-- Two bytes of ASCII match just when their characters are the same up to letter case. -/
theorem lowerByte_ascii_inj {c d : Char} (ascii : c.toNat < 128) (asciiToo : d.toNat < 128) :
    lowerByte (UInt8.ofNat c.toNat) = lowerByte (UInt8.ofNat d.toNat) ↔ c.toLower = d.toLower := by
  rw [← UInt8.toNat_inj, ← Char.toNat_inj, toNat_lowerByte, toNat_lowerByte, toNat_toLower,
    toNat_toLower, UInt8.toNat_ofNat', UInt8.toNat_ofNat', Nat.mod_eq_of_lt (by omega),
    Nat.mod_eq_of_lt (by omega)]

theorem append_singleton_suffix {α : Type} {left right : List α} {a b : α} :
    left ++ [a] <:+ right ++ [b] ↔ left <:+ right ∧ a = b := by
  have alike : [a].length = [b].length := rfl
  rw [List.suffix_append_inj_of_length_eq alike, List.singleton_inj]

/-- The bytes of characters, with letters made small. -/
def lowered (chars : List Char) : List UInt8 :=
  (chars.flatMap String.utf8EncodeChar).map lowerByte

theorem lowered_append (front back : List Char) :
    lowered (front ++ back) = lowered front ++ lowered back := by
  rw [lowered, List.flatMap_append, List.map_append, lowered, lowered]

/-- The bytes of a name end in those of ASCII characters just when the name ends in the characters,
up to letter case. -/
theorem lowered_suffix_iff {pattern : List Char} (ascii : ∀ c ∈ pattern, c.toNat < 128) :
    lowered pattern <:+ lowered chars ↔ pattern.map Char.toLower <:+ chars.map Char.toLower := by
  induction pattern using List.reverseRecOn generalizing chars with
  | nil => simp [lowered]
  | append_singleton pattern c ih =>
    obtain ⟨earlier, here⟩ := List.forall_mem_append.mp ascii
    have here : c.toNat < 128 := here c List.mem_cons_self
    have last : lowered [c] = [lowerByte (UInt8.ofNat c.toNat)] := by
      rw [lowered, List.flatMap_singleton, utf8EncodeChar_ascii here, List.map_singleton]
    rcases List.eq_nil_or_concat chars with rfl | ⟨front, d, rfl⟩
    · simp [lowered]
    · rw [List.concat_eq_append, lowered_append, lowered_append, last, List.map_append,
        List.map_append, List.map_singleton, List.map_singleton, append_singleton_suffix]
      by_cases short : d.toNat < 128
      · have other : lowered [d] = [lowerByte (UInt8.ofNat d.toNat)] := by
          rw [lowered, List.flatMap_singleton, utf8EncodeChar_ascii short, List.map_singleton]
        rw [other, append_singleton_suffix, ih earlier, lowerByte_ascii_inj here short]
      · obtain ⟨lead, tail, bytes, large⟩ := utf8EncodeChar_long short
        have other : lowered [d] = lead.map lowerByte ++ [lowerByte tail] := by
          rw [lowered, List.flatMap_singleton, bytes, List.map_append, List.map_singleton]
        have apart : lowerByte (UInt8.ofNat c.toNat) ≠ lowerByte tail := by
          rw [Ne, ← UInt8.toNat_inj, toNat_lowerByte, toNat_lowerByte, UInt8.toNat_ofNat',
            Nat.mod_eq_of_lt (by omega)]
          split <;> split <;> omega
        have different : c.toLower ≠ d.toLower := by
          rw [Ne, ← Char.toNat_inj, toNat_toLower, toNat_toLower]
          split <;> split <;> omega
        rw [other, ← List.append_assoc, append_singleton_suffix]
        exact iff_of_false (fun same => apart same.2) fun same => different same.2

/-! ### Masks -/

/-- A star followed by ASCII characters accepts the names that end in them, up to letter case. -/
theorem accepts_star {pattern : List Char} (ascii : ∀ c ∈ pattern, c.toNat < 128) (name : String) :
    accepts (.anyBytes :: pattern.map .literal) name ↔
      pattern.map Char.toLower <:+ name.toList.map Char.toLower := by
  have spread : accepts (.anyBytes :: pattern.map .literal) name ↔
      [] ∈ advanceAll (pattern.map .literal) (tails (name.toList.flatMap String.utf8EncodeChar)) := by
    rw [accepts, List.any_eq_true]
    · simp [advanceAll, advance, afterAny]
    · exact nofun
  rw [spread, mem_advanceAll_literals, ← lowered_suffix_iff ascii]
  constructor
  · rintro ⟨front, same, listed⟩
    rw [List.append_nil, mem_tails] at listed
    rw [lowered, lowered, ← same]
    exact listed.map lowerByte
  · rintro ⟨front, whole⟩
    obtain ⟨lead, back, bytes, -, same⟩ := List.map_eq_append_iff.mp whole.symm
    refine ⟨back, same, ?_⟩
    rw [List.append_nil, mem_tails, bytes]
    exact List.suffix_append lead back

/-- The mask for every file accepts any name with a period. -/
theorem accepts_everyFile {name : String} (period : '.' ∈ name.toList) :
    accepts [.anyBytes, .literal '.', .anyBytes] name := by
  obtain ⟨front, back, whole⟩ := List.append_of_mem period
  have left : back.flatMap String.utf8EncodeChar ∈ afterLiteral (String.utf8EncodeChar '.')
      (tails (name.toList.flatMap String.utf8EncodeChar)) := by
    refine mem_afterLiteral.mpr ⟨_, rfl, mem_tails.mpr ?_⟩
    rw [whole, List.flatMap_append, List.flatMap_cons]
    exact List.suffix_append _ _
  rw [accepts, List.any_eq_true]
  · refine ⟨[], ?_, rfl⟩
    exact nil_mem_afterAny.mpr (List.ne_nil_of_mem left)
  · exact nofun

/-! ### Reading -/

/-- A letter or digit stands for itself. -/
theorem readFrom_alphanum {c : Char} (plain : c.isAlphanum) (fuel : Nat) (draft : Draft)
    (before : Option Char) (rest : List Char) : readFrom (fuel + 1) draft before (c :: rest) =
      readFrom fuel (draft.push (.literal c)) (some c) rest := by
  rw [readFrom]
  all_goals
    rintro rfl
    exact absurd plain (by decide)

theorem readFrom_all_alphanum (plain : ∀ c ∈ chars, c.isAlphanum) (draft : Draft)
    (before : Option Char) : readFrom chars.length draft before chars =
      .ok { draft with current := chars.reverse.map .literal ++ draft.current } := by
  induction chars generalizing draft before with
  | nil => rfl
  | cons c rest ih =>
    obtain ⟨here, later⟩ := List.forall_mem_cons.mp plain
    rw [List.length_cons, readFrom_alphanum here, ih later]
    simp [Draft.push]

/-- A star, a period and letters or digits are read as they stand. -/
theorem parse_extension (plain : ∀ c ∈ chars, c.isAlphanum) :
    parse (String.ofList ('*' :: '.' :: chars)) =
      .ok (.anyBytes :: ('.' :: chars).map .literal) := by
  have read := readFrom_all_alphanum plain
    ((Draft.push {} .anyBytes).push (.literal '.')) (some '.')
  have opened : readFrom ('*' :: '.' :: chars).length {} none ('*' :: '.' :: chars) =
      readFrom chars.length ((Draft.push {} .anyBytes).push (.literal '.')) (some '.') chars := rfl
  rw [parse, String.toList_ofList, opened, read]
  simp [Draft.isNested, Draft.push]

theorem parse_everyFile : parse "*.*" = .ok [.anyBytes, .literal '.', .anyBytes] := rfl

end Clarion.Mask
