import Clarion.Text.CaseTable

/-! Full letter case. A character may grow into several (`ß` becomes `SS`), and a capital sigma at
the end of a word becomes the final form `ς`. -/
namespace Clarion.Text

private def inSpans (spans : List (Nat × Nat)) (c : Char) : Bool :=
  spans.any fun span => span.1 ≤ c.toNat && c.toNat ≤ span.2

private def mapCase (expansions : List (Nat × List Nat)) (stretches : List Stretch) (c : Char) :
    List Char :=
  match expansions.lookup c.toNat with
  | some codes => codes.map Char.ofNat
  | none =>
    match stretches.findSome? (·.image? c.toNat) with
    | some code => [Char.ofNat code]
    | none => [c]

/-- The capital form of one character. -/
def upperChar (c : Char) : List Char :=
  if c.toNat < 0x80 then [c.toUpper] else mapCase upperExpansions upperStretches c

/-- The small form of one character, read without its surroundings. -/
def lowerChar (c : Char) : List Char :=
  if c.toNat < 0x80 then [c.toLower] else mapCase lowerExpansions lowerStretches c

/-- Past the characters that a word may hold without ending, a letter with case follows. -/
def meetsCased (chars : List Char) : Bool :=
  match chars.dropWhile (inSpans caseIgnorableSpans) with
  | [] => false
  | c :: _ => inSpans casedSpans c

/-- Small forms of `rest`, where `before` holds the characters already passed, last first. -/
def lowerFrom (before : List Char) : List Char → List Char
  | [] => []
  | c :: rest =>
    let small :=
      if c = 'Σ' then
        if meetsCased before && !meetsCased rest then ['ς'] else ['σ']
      else lowerChar c
    small ++ lowerFrom (c :: before) rest

/-- The text in small letters. -/
def lowercase (text : String) : String :=
  String.ofList (lowerFrom [] text.toList)

/-- The text in capital letters. -/
def uppercase (text : String) : String :=
  String.ofList (text.toList.flatMap upperChar)

end Clarion.Text
