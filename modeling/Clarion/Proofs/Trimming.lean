import Clarion.Text.Basic
import Mathlib.Data.List.DropRight

/-! Trimming. It takes blanks away and nothing else, so the characters that are no blanks stay, and
characters between two of them stay altogether. What follows other characters can only put back
what their trimming dropped at the end: trimmed characters are the start of the trimmed whole. -/
namespace Clarion.Text

variable {test : Char → Bool} {chars : List Char} {c : Char}

/-- The characters that are no blanks. -/
def withoutBlanks (chars : List Char) : List Char :=
  chars.filter (!isBlank ·)

/-! ### The end of characters -/

theorem dropEndWhile_eq (test : Char → Bool) (chars : List Char) :
    dropEndWhile test chars = chars.rdropWhile test :=
  rfl

theorem mem_of_mem_dropEndWhile (member : c ∈ dropEndWhile test chars) : c ∈ chars :=
  (List.rdropWhile_prefix test chars).mem member

theorem dropEndWhile_append_cons (stays : ¬test c) (front back : List Char) :
    dropEndWhile test (front ++ c :: back) = front ++ c :: dropEndWhile test back := by
  rw [dropEndWhile, List.reverse_append, List.reverse_cons, List.append_assoc, List.dropWhile_append]
  split
  next none =>
    rw [List.isEmpty_iff] at none
    rw [dropEndWhile, none, List.singleton_append, List.dropWhile_cons_of_neg stays]
    simp
  next some => simp [dropEndWhile]

/-- More characters leave what stays of the ones before them. -/
theorem dropEndWhile_append_prefix (test : Char → Bool) (front back : List Char) :
    dropEndWhile test front <+: dropEndWhile test (front ++ back) := by
  induction back using List.reverseRecOn with
  | nil => simp
  | append_singleton back c ih =>
    rw [← List.append_assoc, dropEndWhile_eq test (front ++ back ++ [c])]
    by_cases dropped : test c
    · rw [List.rdropWhile_concat_pos _ _ _ dropped]
      exact ih
    · rw [List.rdropWhile_concat_neg _ _ _ dropped, List.append_assoc]
      exact (List.rdropWhile_prefix test front).trans (List.prefix_append front _)

/-! ### Both ends -/

/-- Trimmed characters do not end in a blank. -/
theorem isBlank_getLast?_trimChars (last : (trimChars chars).getLast? = some c) :
    isBlank c = false := by
  rw [trimChars, dropEndWhile, List.getLast?_reverse] at last
  have first := List.head?_dropWhile_not isBlank (chars.dropWhile isBlank).reverse
  rw [last] at first
  exact first

/-- Characters between two that are no blanks stay. -/
theorem trimChars_eq_self {first last : Char} {rest : List Char} (front : isBlank first = false)
    (ends : (first :: rest).getLast? = some last) (back : isBlank last = false) :
    trimChars (first :: rest) = first :: rest := by
  rw [trimChars, List.dropWhile_cons_of_neg (by simp [front]), dropEndWhile_eq,
    List.rdropWhile_eq_self_iff]
  intro nonempty
  have same : (first :: rest).getLast nonempty = last :=
    Option.some.inj ((List.getLast?_eq_some_getLast nonempty).symm.trans ends)
  simp [same, back]

theorem trimChars_of_ends {first last : Char} (front : isBlank first = false)
    (back : isBlank last = false) (chars : List Char) :
    trimChars (first :: chars ++ [last]) = first :: chars ++ [last] := by
  have ends : (first :: chars ++ [last]).getLast? = some last := List.getLast?_concat
  exact trimChars_eq_self front ends back

/-- Trimmed characters start whatever is left when more characters follow them. -/
theorem trimChars_append_prefix (front back : List Char) :
    trimChars front <+: trimChars (front ++ back) := by
  rw [trimChars, trimChars, List.dropWhile_append]
  split
  next none =>
    rw [List.isEmpty_iff.mp none]
    exact List.nil_prefix
  next some => exact dropEndWhile_append_prefix ..

/-! ### What is no blank -/

theorem withoutBlanks_append (front back : List Char) :
    withoutBlanks (front ++ back) = withoutBlanks front ++ withoutBlanks back :=
  List.filter_append ..

theorem withoutBlanks_reverse (chars : List Char) :
    withoutBlanks chars.reverse = (withoutBlanks chars).reverse :=
  List.filter_reverse ..

theorem withoutBlanks_dropWhile (chars : List Char) :
    withoutBlanks (chars.dropWhile isBlank) = withoutBlanks chars := by
  induction chars with
  | nil => rfl
  | cons c rest ih =>
    by_cases blank : isBlank c
    · rw [List.dropWhile_cons_of_pos blank, ih]
      simp [withoutBlanks, blank]
    · rw [List.dropWhile_cons_of_neg blank]

theorem withoutBlanks_trimChars (chars : List Char) :
    withoutBlanks (trimChars chars) = withoutBlanks chars := by
  rw [trimChars, dropEndWhile, withoutBlanks_reverse, withoutBlanks_dropWhile,
    withoutBlanks_reverse, List.reverse_reverse, withoutBlanks_dropWhile]

end Clarion.Text
