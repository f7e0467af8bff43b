import Clarion.Proofs.Checked.Display
import Mathlib.Data.List.Chain

/-! Logical lines. A logical line is told by the steps between its tokens alone: each stays on the
physical line or goes on to the next one after a continuation mark, and the step out of it does
neither. A scan along it knows of the tokens before only what the rule asks for, and at a token that
is no comment it knows nothing of them; so a scan from there ends at the same place.

The scan finds the next line by counting in 32 bits. Past the last line of all it would go on to
line 0, which the rule does not allow, so the two agree where no step leaves that line. -/
namespace Clarion.Tokens

variable {tokens seen more later : Tokens} {token last next : Token} {line start stop index : Nat}
  {cursor : Cursor}

/-- The last of the tokens on the line that is no comment is the continuation mark. -/
def continuesLine (tokens : Tokens) (line : Nat) : Bool :=
  (tokens.reverse.find? fun token => token.line == line && !token.isComment).any
    Token.isContinuation

/-- A statement goes on from one of its tokens to the next: on the same line, or in the next line
after the continuation mark. -/
def GoesOn (statement : Tokens) (last next : Token) : Prop :=
  next.line = last.line ∨ next.line = last.line + 1 ∧ statement.continuesLine last.line

theorem continuesLine_concat (seen : Tokens) (token : Token) (line : Nat) :
    continuesLine (seen ++ [token]) line =
      if token.line == line && !token.isComment then token.isContinuation
      else seen.continuesLine line := by
  unfold continuesLine
  rw [List.reverse_append, List.reverse_singleton, List.singleton_append, List.find?_cons]
  split <;> simp_all

theorem continuesLine_of_none (apart : ∀ token ∈ seen, token.line ≠ line) :
    seen.continuesLine line = false := by
  have none : seen.reverse.find? (fun token => token.line == line && !token.isComment) = none := by
    rw [List.find?_eq_none]
    intro token member
    simp [apart token (List.mem_reverse.mp member)]
  rw [continuesLine, none, Option.any_none]

theorem GoesOn.le (goesOn : GoesOn seen last next) : last.line ≤ next.line := by
  rcases goesOn with same | ⟨following, -⟩
  · exact Nat.le_of_eq same.symm
  · exact Nat.le_trans (Nat.le_succ _) (Nat.le_of_eq following.symm)

/-- The cursor stands on the last of the tokens seen, none of which lies on a later line, and knows
how their statement may go on. -/
structure Cursor.Follows (cursor : Cursor) (seen : Tokens) (last : Token) : Prop where
  line : cursor.line = last.line
  behind : ∀ token ∈ seen, token.line ≤ last.line
  continues : cursor.continues = seen.continuesLine last.line

namespace Cursor

theorem Follows.advance (follows : cursor.Follows seen last) (goesOn : GoesOn seen last next) :
    (cursor.advance next).Follows (seen ++ [next]) next where
  line := by
    unfold Cursor.advance
    split <;> rfl
  behind := by
    intro token member
    rcases List.mem_append.mp member with earlier | here
    · exact Nat.le_trans (follows.behind token earlier) goesOn.le
    · rw [List.mem_singleton.mp here]
  continues := by
    rw [continuesLine_concat]
    unfold Cursor.advance
    cases comment : next.isComment with
    | false => simp
    | true =>
      rcases goesOn with same | ⟨following, -⟩
      · simp [follows.line, follows.continues, same]
      · -- Nothing seen so far stands on the new line.
        have fresh : seen.continuesLine next.line = false := by
          refine continuesLine_of_none fun token member => ?_
          have := follows.behind token member
          omega
        have moved : (next.line == cursor.line) = false := by simp [follows.line, following]
        simp [moved, fresh]

end Cursor

end Clarion.Tokens
