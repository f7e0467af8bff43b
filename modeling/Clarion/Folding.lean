import Clarion.Json.Basic
import Clarion.Text.Basic
import Clarion.Token.Block

/-! Folding ranges: the spans of lines an editor may collapse. They come from three passes, over
blocks, bodies and comments; a span found by several passes keeps the kind of the first. -/
namespace Clarion

/-- Why a span of lines folds. -/
inductive FoldKind where
  | region | comment
deriving Repr, DecidableEq

/-- The written name of a fold's kind. -/
def FoldKind.name : FoldKind → String
  | .region => "region"
  | .comment => "comment"

/-- A span of lines that folds. -/
structure Fold where
  startLine : Nat
  endLine : Nat
  kind : FoldKind
deriving Repr, DecidableEq

namespace Fold

/-- A fold over more than one line, and nothing otherwise. -/
def of (startLine endLine : Nat) (kind : FoldKind) : List Fold :=
  if startLine < endLine then [⟨startLine, endLine, kind⟩] else []

/-- The JSON form of a fold. -/
def toJson (fold : Fold) : Json :=
  .obj [("startLine", .int fold.startLine), ("endLine", .int fold.endLine),
    ("kind", .str fold.kind.name)]

/-- The folds of blocks, with the openers still open listed innermost first. -/
def blocksFrom (tokens : Tokens) (openers : List Token) (index : Nat) :
    Tokens → List Fold × List Token
  | [] => ([], openers)
  | token :: rest =>
    if tokens.opensBlock index then blocksFrom tokens (token :: openers) (index + 1) rest
    else
      match openers with
      | [] => blocksFrom tokens [] (index + 1) rest
      | opener :: outer =>
        if tokens.closesBlock index opener then
          let fold := Fold.of opener.line (opener.finishesAt.getD token.line) .region
          let (later, left) := blocksFrom tokens outer (index + 1) rest
          (fold ++ later, left)
        else blocksFrom tokens openers (index + 1) rest

/-- Folds of structures and executable compounds. One that nothing closes still folds when its
closing line is known. -/
def blocks (tokens : Tokens) : List Fold :=
  let (closed, openers) := blocksFrom tokens [] 0 tokens
  closed ++ openers.reverse.flatMap fun opener =>
    opener.finishesAt.elim [] fun last => Fold.of opener.line last .region

/-- The token starts a procedure or routine with a body. -/
def startsBody (token : Token) : Bool :=
  match token.kind with
  | .procedure => !token.isDeclaration
  | .routine => true
  | .keyword => token.reads "ROUTINE"
  | _ => false

/-- The folds of bodies, each without a closing line running up to the next one that starts on a
later line, or to `lastLine`. -/
def bodiesFrom (lastLine : Nat) : List Token → List Fold
  | [] => []
  | token :: rest =>
    let next := (rest.map Token.line).find? (token.line < ·)
    let endLine := token.finishesAt.getD (next.elim lastLine (· - 1))
    Fold.of token.line endLine .region ++ bodiesFrom lastLine rest

/-- Folds of procedure and routine bodies. -/
def bodies (tokens : Tokens) : List Fold :=
  match tokens.getLast? with
  | none => []
  | some last => bodiesFrom last.line (tokens.filter startsBody)

/-- What a comment token says, without its marks and the blanks around. -/
def commentText (token : Token) : List Char :=
  Text.trimChars (token.value.toList.dropWhile (· == '!'))

/-- The comment text starts with a marker, up to letter case. -/
def isMarker (marker : String) (text : List Char) : Bool :=
  match Text.headBytes? marker.utf8ByteSize text with
  | some head => Text.sameFold (String.ofList head) marker
  | none => false

/-- A run of comment lines, from its first line to its last. -/
abbrev Run := Option (Nat × Nat)

/-- The fold of a run that ends. -/
def ofRun : Run → List Fold
  | none => []
  | some (first, last) => Fold.of first last .comment

/-- The folds of comment runs and marked regions. A comment counts only when it is the first token
of its line, and code ends a run. -/
def commentsFrom (regions : List Nat) (run : Run) (previous : Option Nat) : Tokens → List Fold
  | [] => ofRun run
  | token :: rest =>
    let here := some token.line
    if !token.isComment then ofRun run ++ commentsFrom regions none here rest
    else if previous == here then commentsFrom regions run here rest
    else
      let text := commentText token
      if isMarker "endregion" text then
        match regions with
        | [] => ofRun run ++ commentsFrom [] none here rest
        | start :: outer =>
          ofRun run ++ Fold.of start token.line .region ++ commentsFrom outer none here rest
      else if isMarker "region" text then
        ofRun run ++ commentsFrom (token.line :: regions) none here rest
      else
        match run with
        | some (first, last) =>
          if Tokens.isNextLine last token.line then
            commentsFrom regions (some (first, token.line)) here rest
          else ofRun run ++ commentsFrom regions (some (token.line, token.line)) here rest
        | none => commentsFrom regions (some (token.line, token.line)) here rest

/-- Folds of comment runs and of regions marked in comments. -/
def comments (tokens : Tokens) : List Fold :=
  commentsFrom [] none none tokens

/-- Two folds cover the same lines. -/
def sameSpan (left right : Fold) : Bool :=
  left.startLine == right.startLine && left.endLine == right.endLine

/-- The first fold starts earlier, or starts together with the second and ends no later. -/
def spanLe (left right : Fold) : Bool :=
  left.startLine < right.startLine ||
    (left.startLine == right.startLine && left.endLine ≤ right.endLine)

/-- Neighbours with the same span reduced to the first of them. -/
def distinct : List Fold → List Fold
  | [] => []
  | fold :: rest =>
    match distinct rest with
    | [] => [fold]
    | next :: later => if sameSpan fold next then fold :: later else fold :: next :: later

/-- The folding ranges of a document, by start and end line, each span once. -/
def all (tokens : Tokens) : List Fold :=
  distinct ((blocks tokens ++ bodies tokens ++ comments tokens).mergeSort spanLe)

end Fold
end Clarion
