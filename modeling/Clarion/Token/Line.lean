import Clarion.Token.Basic

/-! Lines of a token list. A statement takes up one physical line, and goes on in the next one only
when the last token of its line that is no comment is the continuation mark. -/
namespace Clarion

/-- The tokens of a document, in the order of the lexer. -/
abbrev Tokens := List Token

namespace Tokens

/-- The index of the first token on a line. -/
def firstOnLine? (tokens : Tokens) (line : Nat) : Option Nat :=
  tokens.findIdx? (·.line == line)

/-- The index just past the last token on a line. -/
def lineStop? (tokens : Tokens) (line : Nat) : Option Nat :=
  (tokens.reverse.findIdx? (·.line == line)).map (tokens.length - ·)

/-- The indices from the first token on a line to just past the last one. -/
def lineSpan? (tokens : Tokens) (line : Nat) : Option (Nat × Nat) := do
  let first ← tokens.firstOnLine? line
  let stop ← tokens.lineStop? line
  return (first, stop)

/-- The tokens from index `start` up to index `stop`. -/
def slice (tokens : Tokens) (start stop : Nat) : Tokens :=
  (tokens.take stop).drop start

theorem slice_eq_cons {tokens : Tokens} {token : Token} {start stop : Nat}
    (found : tokens[start]? = some token) (order : start < stop) :
    tokens.slice start stop = token :: (tokens.drop (start + 1)).take (stop - start - 1) := by
  obtain ⟨bound, rfl⟩ := List.getElem?_eq_some_iff.mp found
  rw [slice, List.drop_take, List.drop_eq_getElem_cons bound,
    List.take_cons (Nat.sub_pos_of_lt order)]

/-- The tokens from the first one on a line to the last one on it. -/
def onLine (tokens : Tokens) (line : Nat) : Tokens :=
  match tokens.lineSpan? line with
  | some (first, stop) => tokens.slice first stop
  | none => []

/-- The column just past the last token on a line. -/
def lineStopColumn? (tokens : Tokens) (line : Nat) : Option Nat :=
  (tokens.reverse.find? (·.line == line)).map Token.stop

/-- The second line comes right after the first. Lines are counted in 32 bits, where line 0 comes
after the last one. -/
def isNextLine (last line : Nat) : Bool :=
  line == last + 1 || (last == 4294967295 && line == 0)

/-- The greatest line that holds a token. -/
def lastLine? (tokens : Tokens) : Option Nat :=
  (tokens.map Token.line).max?

/-- Where a scan along a statement stands: a physical line, and whether the last token seen on it
that is no comment is the continuation mark. -/
structure Cursor where
  line : Nat
  continues : Bool
deriving Repr, DecidableEq

/-- The cursor on a token. -/
def Cursor.at (token : Token) : Cursor :=
  ⟨token.line, !token.isComment && token.isContinuation⟩

/-- The cursor after it moves on to a token. -/
def Cursor.advance (cursor : Cursor) (token : Token) : Cursor :=
  if token.isComment then ⟨token.line, token.line == cursor.line && cursor.continues⟩
  else ⟨token.line, token.isContinuation⟩

/-- The statement at the cursor may take in the next token: it stands on the same line, or on the
following one after a continuation mark. -/
def Cursor.allows (cursor : Cursor) (next : Token) : Bool :=
  next.line == cursor.line || (isNextLine cursor.line next.line && cursor.continues)

/-- How many of the tokens belong to the statement at the cursor. -/
def statementLength (cursor : Cursor) : Tokens → Nat
  | [] => 0
  | next :: rest =>
    if cursor.allows next then statementLength (cursor.advance next) rest + 1 else 0

/-- The index just past the logical line that starts at `start`. -/
def logicalLineEnd (tokens : Tokens) (start : Nat) : Nat :=
  match tokens.drop start with
  | [] => start
  | first :: rest => start + 1 + statementLength (.at first) rest

/-- The tokens of the logical line that starts at `start`. -/
def logicalLine (tokens : Tokens) (start : Nat) : Tokens :=
  tokens.slice start (tokens.logicalLineEnd start)

end Tokens
end Clarion
