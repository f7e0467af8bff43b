import Clarion.Folding
import Clarion.Proofs.Checked.Outline

/-! The folding passes with every access checked, and with them the bounds of both passes over a
document. Comments fold without any access that could fail. -/
namespace Clarion.Checked

variable {tokens : Tokens}

/-! ### Folds -/

/-- The folds of blocks, with the openers still open listed innermost first. -/
def blocksFrom (tokens : Tokens) (openers : List Token) (index : Nat) :
    Tokens → Checked (List Fold × List Token)
  | [] => .ok ([], openers)
  | token :: rest => do
    if ← opensBlock tokens index then blocksFrom tokens (token :: openers) (index + 1) rest
    else
      match openers with
      | [] => blocksFrom tokens [] (index + 1) rest
      | opener :: outer => do
        if ← closesBlock tokens index opener then do
          let later ← blocksFrom tokens outer (index + 1) rest
          return (Fold.of opener.line (opener.finishesAt.getD token.line) .region ++ later.1, later.2)
        else blocksFrom tokens (opener :: outer) (index + 1) rest

theorem blocksFrom_ok (tokens : Tokens) (openers : List Token) (index : Nat) (rest : Tokens) :
    blocksFrom tokens openers index rest = .ok (Fold.blocksFrom tokens openers index rest) := by
  induction rest generalizing openers index with
  | nil => rfl
  | cons token rest ih =>
    unfold blocksFrom Fold.blocksFrom
    rw [opensBlock_ok, ok_bind]
    split
    · exact ih ..
    · cases openers with
      | nil => exact ih ..
      | cons opener outer =>
        dsimp only
        rw [closesBlock_ok, ok_bind]
        split
        · rw [ih, ok_bind]
          rfl
        · exact ih ..

/-- Folds of structures and executable compounds. -/
def blocks (tokens : Tokens) : Checked (List Fold) := do
  let parts ← blocksFrom tokens [] 0 tokens
  return parts.1 ++ parts.2.reverse.flatMap fun opener =>
    opener.finishesAt.elim [] fun last => Fold.of opener.line last .region

theorem blocks_ok (tokens : Tokens) : blocks tokens = .ok (Fold.blocks tokens) := by
  rw [blocks, blocksFrom_ok, ok_bind]
  rfl

/-- The last line of the body that starts at a place among all starts. -/
def bodyEnd (starts : List Token) (lastLine place : Nat) (token : Token) : Checked Nat :=
  match token.finishesAt with
  | some line => .ok line
  | none => do
    let later ← slice starts (place + 1) starts.length
    match (later.map Token.line).find? (token.line < ·) with
    | some line => minus line 1
    | none => return lastLine

/-- The folds of bodies from a place among all starts on. -/
def bodiesFrom (starts : List Token) (lastLine place : Nat) : List Token → Checked (List Fold)
  | [] => .ok []
  | token :: rest => do
    let last ← bodyEnd starts lastLine place token
    let later ← bodiesFrom starts lastLine (place + 1) rest
    return Fold.of token.line last .region ++ later

/-- A body that runs up to the next one ends on a line before it, and a later line has one before
it. -/
theorem bodyEnd_ok {starts rest : List Token} {place : Nat} {token : Token} (lastLine : Nat)
    (ahead : starts.drop place = token :: rest) :
    bodyEnd starts lastLine place token = .ok (token.finishesAt.getD
      (((rest.map Token.line).find? (token.line < ·)).elim lastLine (· - 1))) := by
  have bound : place < starts.length := by
    have shorter := congrArg List.length ahead
    rw [List.length_drop, List.length_cons] at shorter
    omega
  have next : starts.drop (place + 1) = rest := by
    rw [← List.tail_drop, ahead, List.tail_cons]
  unfold bodyEnd
  cases token.finishesAt with
  | some line => rfl
  | none =>
    dsimp only
    rw [slice_ok bound (Nat.le_refl _), List.take_length, next, ok_bind]
    cases later : (rest.map Token.line).find? (token.line < ·) with
    | none => rfl
    | some line =>
      have order : token.line < line := by simpa using List.find?_some later
      exact minus_ok (Nat.one_le_of_lt order)

theorem bodiesFrom_ok {starts rest : List Token} {place : Nat} (lastLine : Nat)
    (ahead : starts.drop place = rest) :
    bodiesFrom starts lastLine place rest = .ok (Fold.bodiesFrom lastLine rest) := by
  induction rest generalizing place with
  | nil => rfl
  | cons token rest ih =>
    have next : starts.drop (place + 1) = rest := by
      rw [← List.tail_drop, ahead, List.tail_cons]
    rw [bodiesFrom, bodyEnd_ok lastLine ahead, ok_bind, ih next, ok_bind]
    rfl

/-- Folds of procedure and routine bodies. -/
def bodies (tokens : Tokens) : Checked (List Fold) :=
  match tokens.getLast? with
  | none => .ok []
  | some last =>
    bodiesFrom (tokens.filter Fold.startsBody) last.line 0 (tokens.filter Fold.startsBody)

theorem bodies_ok (tokens : Tokens) : bodies tokens = .ok (Fold.bodies tokens) := by
  unfold bodies Fold.bodies
  cases tokens.getLast? with
  | none => rfl
  | some last => exact bodiesFrom_ok last.line List.drop_zero

/-- The folding ranges of a document. -/
def folds (tokens : Tokens) : Checked (List Fold) := do
  let blocks ← blocks tokens
  let bodies ← bodies tokens
  return Fold.distinct ((blocks ++ bodies ++ Fold.comments tokens).mergeSort Fold.spanLe)

theorem folds_ok (tokens : Tokens) : folds tokens = .ok (Fold.all tokens) := by
  rw [folds, blocks_ok, ok_bind, bodies_ok, ok_bind]
  rfl

/-! ### Both passes -/

/-- Whatever the tokens, no access of the outline pass, of the display texts it reads or of the
folding pass is out of bounds, and no difference goes below zero: checked, both passes go through
and answer as they do unchecked. -/
theorem passes_stay_in_bounds (tokens : Tokens) :
    outline tokens = .ok (Outline.ofTokens tokens) ∧ folds tokens = .ok (Fold.all tokens) :=
  ⟨outline_ok tokens, folds_ok tokens⟩

end Clarion.Checked
