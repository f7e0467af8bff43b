import Clarion.Token.Line

/-! Blocks: structures and executable compounds that `END`, a period, or the closing condition of a
loop ends. -/
namespace Clarion.Tokens

/-- Words that open a block and never stand for a declaration. -/
def compoundWords : List String :=
  ["IF", "LOOP", "CASE", "BEGIN", "EXECUTE", "ITEMIZE", "ACCEPT"]

/-- Words that a structure token may read without declaring anything. -/
def silentWords : List String :=
  ["IF", "LOOP", "CASE", "BEGIN", "EXECUTE", "ITEMIZE", "BREAK", "ACCEPT"]

/-- Going back from a token on `line`, a comma comes before any structure. -/
def commaComesFirst (line : Nat) : Tokens → Bool
  | [] => false
  | token :: rest =>
    if token.line != line then false
    else if token.isComma then true
    else if token.kind == .structureWord then false
    else commaComesFirst line rest

/-- A `MODULE` that is an attribute of a declaration and no structure of its own. -/
def isModuleAttribute (tokens : Tokens) (index : Nat) : Bool :=
  match tokens[index]? with
  | none => false
  | some token => token.reads "MODULE" && commaComesFirst token.line (tokens.take index).reverse

/-- The token opens a block. -/
def opensBlock (tokens : Tokens) (index : Nat) : Bool :=
  match tokens[index]? with
  | none => false
  | some token =>
    match token.kind with
    | .structureWord => !tokens.isModuleAttribute index
    | .keyword => token.readsOneOf compoundWords
    | _ => false

/-- The token is the first of its physical line, as far as the one before it tells. -/
def leadsLine (tokens : Tokens) (index : Nat) (token : Token) : Bool :=
  match index with
  | 0 => true
  | before + 1 => tokens[before]?.all (·.line != token.line)

/-- `UNTIL` or `WHILE` at the head of a line, which closes a loop without an `END`. -/
def isLoopTerminator (tokens : Tokens) (index : Nat) : Bool :=
  match tokens[index]? with
  | none => false
  | some token =>
    token.kind == .keyword && (token.reads "UNTIL" || token.reads "WHILE") &&
      tokens.leadsLine index token

/-- The token closes `opener`, the innermost open block. -/
def closesBlock (tokens : Tokens) (index : Nat) (opener : Token) : Bool :=
  tokens[index]?.any (·.kind == .endStatement) ||
    (opener.reads "LOOP" && tokens.isLoopTerminator index)

/-- The index just past the innermost-first `openers`' last block, scanning `rest` from `index`. -/
def blockStopFrom (tokens : Tokens) (openers : List Token) (index : Nat) : Tokens → Nat
  | [] => tokens.length
  | token :: rest =>
    if tokens.opensBlock index then blockStopFrom tokens (token :: openers) (index + 1) rest
    else
      match openers with
      | [] => blockStopFrom tokens [] (index + 1) rest
      | opener :: outer =>
        if tokens.closesBlock index opener then
          if outer.isEmpty then
            if token.kind == .endStatement then index + 1 else tokens.logicalLineEnd index
          else blockStopFrom tokens outer (index + 1) rest
        else blockStopFrom tokens openers (index + 1) rest

/-- The index just past the block opened at `index`: the first token beyond its closing line when
that is known, else the end found by matching blocks. A block that nothing closes takes in all. -/
def blockEnd (tokens : Tokens) (index : Nat) : Nat :=
  match tokens.drop index with
  | [] => index
  | token :: rest =>
    match token.finishesAt with
    | some last =>
      ((token :: rest).findIdx? (last < ·.line)).elim tokens.length (index + ·)
    | none => blockStopFrom tokens [token] (index + 1) rest

end Clarion.Tokens
