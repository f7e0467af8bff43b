import Clarion.Token.Line

/-! Parts of a token list. Its text is put together again from the tokens: comments and continuation
marks are dropped, and a gap of any width between two tokens becomes one blank. Parentheses have
partners, commas that no parenthesis encloses cut the list into parts, and attributes have the form
`NAME(…)`. -/
namespace Clarion.Tokens

/-! ### Text put together again -/

/-- Text under assembly, and the last token that went into it. -/
structure Assembly where
  text : List Char := []
  last : Option Token := none

/-- Two tokens do not touch. -/
def gapBetween (last next : Token) : Bool :=
  last.line != next.line || last.stop < next.start

/-- The assembly with one more token. -/
def Assembly.push (assembly : Assembly) (token : Token) : Assembly :=
  if token.isComment || token.isContinuation then assembly
  else
    let gap := assembly.last.any (gapBetween · token) && assembly.text.getLast? != some ' '
    ⟨assembly.text ++ (if gap then [' '] else []) ++ token.value.toList, some token⟩

/-- The text of the tokens. -/
def render (tokens : Tokens) : String :=
  String.ofList (Text.trimChars (tokens.foldl Assembly.push {}).text)

/-! ### Parentheses and commas -/

/-- The index of the token that brings the depth back to zero, counting from `index`. -/
def closingFrom (depth index : Nat) : Tokens → Option Nat
  | [] => none
  | token :: rest =>
    if token.isOpen then closingFrom (depth + 1) (index + 1) rest
    else if token.isClose then
      if depth ≤ 1 then some index else closingFrom (depth - 1) (index + 1) rest
    else closingFrom depth (index + 1) rest

/-- The index of the parenthesis that closes the one at `start`, before `limit`. -/
def matchingParen (tokens : Tokens) (start limit : Nat) : Option Nat :=
  match tokens.slice start limit with
  | [] => none
  | first :: rest => if first.isOpen then closingFrom 1 (start + 1) rest else none

/-- The parts between commas at depth zero or below, where `depth` is the depth reached. The depth
stands for a signed number of 32 bits, which fewer than 2 ^ 31 tokens never leave. -/
def splitCommasFrom (depth : Int) : Tokens → List Tokens
  | [] => [[]]
  | token :: rest =>
    if token.isComma && depth ≤ 0 then
      [] :: splitCommasFrom depth rest
    else
      let inner := if token.isOpen then depth + 1 else if token.isClose then depth - 1 else depth
      match splitCommasFrom inner rest with
      | [] => [[token]]
      | part :: parts => (token :: part) :: parts

/-- The parts of a token run between the commas that no parenthesis encloses. -/
def splitTopLevelCommas (tokens : Tokens) : List Tokens :=
  splitCommasFrom 0 tokens

/-- Looks for `name` followed by a closed parenthesis among the tokens from `index` on, where `depth`
is the depth reached, of 32 bits as in `splitCommasFrom`. -/
def attributeFrom (tokens : Tokens) (limit : Nat) (name : String) (depth : Int) (index : Nat) :
    Tokens → Option String
  | [] => none
  | token :: rest =>
    if token.isOpen then attributeFrom tokens limit name (depth + 1) (index + 1) rest
    else if token.isClose then attributeFrom tokens limit name (depth - 1) (index + 1) rest
    else
      let found :=
        if depth = 0 && token.reads name then tokens.matchingParen (index + 1) limit else none
      match found with
      | some close => some (render (tokens.slice (index + 2) close))
      | none => attributeFrom tokens limit name depth (index + 1) rest

/-- The text inside the first `name(…)` between the indices, outside any other parentheses. -/
def findAttribute (tokens : Tokens) (start stop : Nat) (name : String) : Option String :=
  attributeFrom tokens (min stop tokens.length) name 0 start (tokens.slice start stop)

end Clarion.Tokens
