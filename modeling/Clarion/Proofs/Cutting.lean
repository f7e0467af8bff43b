import Clarion.Text.Basic
import Mathlib.Data.List.Basic

/-! Cutting characters at separators. No part holds a separator, characters without one are a single
part, and a separator parts what stands before it from what stands after it. -/
namespace Clarion.Text

variable {test : Char → Bool} {chars : List Char}

theorem splitChars_ne_nil (test : Char → Bool) (chars : List Char) : splitChars test chars ≠ [] := by
  cases chars with
  | nil => simp [splitChars]
  | cons c rest =>
    rw [splitChars]
    split
    · simp
    · split <;> simp

theorem splitChars_of_none (none : ∀ c ∈ chars, test c = false) :
    splitChars test chars = [chars] := by
  induction chars with
  | nil => rfl
  | cons c rest ih =>
    obtain ⟨here, later⟩ := List.forall_mem_cons.mp none
    simp [splitChars, here, ih later]

/-- A separator parts what stands before it from what stands after it. -/
theorem splitChars_append_cons {sep : Char} (parts : test sep) (left right : List Char) :
    splitChars test (left ++ sep :: right) = splitChars test left ++ splitChars test right := by
  induction left with
  | nil => simp [splitChars, parts]
  | cons c left ih =>
    rw [List.cons_append, splitChars, splitChars, ih]
    split
    · rfl
    · cases cut : splitChars test left with
      | nil => exact absurd cut (splitChars_ne_nil test left)
      | cons part parts => rfl

/-- No separator is left in a part. -/
theorem not_test_of_mem_splitChars {part : List Char} {c : Char}
    (listed : part ∈ splitChars test chars) (member : c ∈ part) : test c = false := by
  induction chars generalizing part with
  | nil =>
    rw [splitChars, List.mem_singleton] at listed
    subst listed
    cases member
  | cons d rest ih =>
    rw [splitChars] at listed
    split at listed
    · rcases List.mem_cons.mp listed with rfl | later
      · cases member
      · exact ih later member
    · rename_i plain
      cases cut : splitChars test rest with
      | nil => exact absurd cut (splitChars_ne_nil test rest)
      | cons first others =>
        rw [cut] at listed ih
        rcases List.mem_cons.mp listed with rfl | later
        · rcases List.mem_cons.mp member with rfl | inside
          · simpa using plain
          · exact ih List.mem_cons_self inside
        · exact ih (List.mem_cons_of_mem first later) member

/-! ### Characters that are changed one by one -/

theorem splitChars_map {test : Char → Bool} {change : Char → Char}
    (same : ∀ c, test (change c) = test c) (chars : List Char) :
    splitChars test (chars.map change) = (splitChars test chars).map (List.map change) := by
  induction chars with
  | nil => rfl
  | cons c rest ih =>
    rw [List.map_cons, splitChars, splitChars, same, ih]
    split
    · rfl
    · cases splitChars test rest <;> rfl

theorem cutChars_map {sep : Char} {change : Char → Char} (same : ∀ c, change c = sep ↔ c = sep)
    (chars : List Char) :
    cutChars sep (chars.map change) =
      (cutChars sep chars).map fun cut => (cut.1.map change, cut.2.map change) := by
  induction chars with
  | nil => rfl
  | cons c rest ih =>
    simp only [List.map_cons, cutChars, same, ih]
    split
    · rfl
    · cases cutChars sep rest <;> rfl

/-- Characters are cut at their first separator. -/
theorem cutChars_eq_some {sep : Char} {before after : List Char}
    (cut : cutChars sep chars = some (before, after)) :
    chars = before ++ sep :: after ∧ sep ∉ before := by
  induction chars generalizing before with
  | nil => cases cut
  | cons c rest ih =>
    rw [cutChars] at cut
    split at cut
    next same =>
      cases cut
      exact ⟨same ▸ rfl, List.not_mem_nil⟩
    next other =>
      obtain ⟨⟨front, back⟩, inner, same⟩ := Option.map_eq_some_iff.mp cut
      cases same
      obtain ⟨rfl, absent⟩ := ih inner
      exact ⟨rfl, List.not_mem_cons_of_ne_of_not_mem (Ne.symm other) absent⟩

theorem cutChars_append_cons {sep : Char} {before : List Char} (absent : sep ∉ before)
    (after : List Char) : cutChars sep (before ++ sep :: after) = some (before, after) := by
  induction before with
  | nil => exact if_pos rfl
  | cons c rest ih =>
    obtain ⟨other, absent⟩ := List.ne_and_not_mem_of_not_mem_cons absent
    rw [List.cons_append, cutChars, if_neg (Ne.symm other), ih absent, Option.map_some]

end Clarion.Text
