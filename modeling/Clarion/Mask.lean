import Clarion.Text.Basic

/-! File masks. A mask is matched against a whole name, byte by byte; the letters `A` to `Z` match in
either case. `*` and `?` also match separators, `**` between separators stands for any number of
directories, a class in brackets matches one byte, and braces hold alternatives. -/
namespace Clarion

/-- What is wrong with a mask. -/
inductive MaskFault where
  | unclosedClass
  | invalidRange (first last : Char)
  | unclosedAlternates
  | unopenedAlternates
  | danglingEscape
deriving Repr, DecidableEq

/-- What a faulty mask is told. -/
def MaskFault.message : MaskFault → String
  | .unclosedClass => "unclosed character class; missing ']'"
  | .invalidRange first last =>
    "invalid range; '" ++ String.singleton first ++ "' > '" ++ String.singleton last ++ "'"
  | .unclosedAlternates =>
    "unclosed alternate group; missing '\x7d' (maybe escape '\x7b' with '[\x7b]'?)"
  | .unopenedAlternates =>
    "unopened alternate group; missing '\x7b' (maybe escape '\x7d' with '[\x7d]'?)"
  | .danglingEscape => "dangling '\\'"

/-- A piece of a mask. -/
inductive MaskPiece where
  | literal (c : Char)
  /-- `?`: one byte. -/
  | anyByte
  /-- `*`: any bytes. -/
  | anyBytes
  /-- `**` at the start: nothing, a separator, or anything up to a separator. -/
  | leadingDirs
  /-- `**` at the end: a separator and anything after it. -/
  | trailingDirs
  /-- `**` between separators: one separator, or anything between two. -/
  | innerDirs
  | oneOf (negated : Bool) (ranges : List (Char × Char))
  | alternatives (branches : List (List MaskPiece))
deriving Repr, Inhabited

/-- A mask taken apart. -/
abbrev Mask := List MaskPiece

namespace Mask

/-! ### Reading -/

/-- A mask being read: the enclosing branches that wait, innermost first, each with the branches
already complete beside it, and the branch in progress. All lists of pieces are reversed. -/
structure Draft where
  current : List MaskPiece := []
  complete : List (List MaskPiece) := []
  outer : List (List MaskPiece × List (List MaskPiece)) := []

/-- The branch in progress with one more piece. -/
def Draft.push (draft : Draft) (piece : MaskPiece) : Draft :=
  { draft with current := piece :: draft.current }

/-- Inside braces. -/
def Draft.isNested (draft : Draft) : Bool :=
  !draft.outer.isEmpty

/-- A class being read: its ranges so far, last first, and whether a range waits for its end. -/
structure ClassDraft where
  ranges : List (Char × Char) := []
  inRange : Bool := false
  isFirst : Bool := true

private def ClassDraft.add (draft : ClassDraft) (c : Char) : Except MaskFault ClassDraft :=
  if draft.inRange then
    match draft.ranges with
    | (first, _) :: rest =>
      if c < first then .error (.invalidRange first c) else .ok ⟨(first, c) :: rest, false, false⟩
    | [] => .ok ⟨[(c, c)], false, false⟩
  else .ok ⟨(c, c) :: draft.ranges, false, false⟩

/-- The rest of a class, up to its closing bracket. -/
def readClass (draft : ClassDraft) : List Char → Except MaskFault (List (Char × Char) × List Char)
  | [] => .error .unclosedClass
  | c :: rest =>
    if c == ']' && !draft.isFirst then
      let ranges := if draft.inRange then ('-', '-') :: draft.ranges else draft.ranges
      .ok (ranges.reverse, rest)
    else if c == '-' && !draft.isFirst && !draft.inRange then
      readClass { draft with inRange := true } rest
    else
      match draft.add c with
      | .error fault => .error fault
      | .ok draft => readClass draft rest

/-- What two stars stand for, given the character before them and the characters after, with the
characters left over. -/
def readStars (draft : Draft) (before : Option Char) (rest : List Char) : Draft × List Char :=
  let plain := (draft.push .anyBytes).push .anyBytes
  let atSeparator := rest.head? == some '/'
  if draft.current.isEmpty then
    if rest.isEmpty || atSeparator then (draft.push .leadingDirs, rest.drop 1) else (plain, rest)
  else if before != some '/' &&
      (!draft.isNested || (before != some ',' && before != some '\x7b')) then (plain, rest)
  else
    let atEnd := rest.isEmpty ||
      (draft.isNested && (rest.head? == some ',' || rest.head? == some '\x7d'))
    if atEnd || atSeparator then
      let rest := if atEnd then rest else rest.drop 1
      let pieces :=
        match draft.current with
        | .leadingDirs :: _ => draft.current
        | .trailingDirs :: _ => draft.current
        | _ :: earlier => (if atEnd then .trailingDirs else .innerDirs) :: earlier
        | [] => []
      ({ draft with current := pieces }, rest)
    else (plain, rest)

/-- Reads pieces; `before` is the character just read, and `fuel` bounds how many are left. -/
def readFrom : Nat → Draft → Option Char → List Char → Except MaskFault Draft
  | 0, draft, _, _ => .ok draft
  | _, draft, _, [] => .ok draft
  | fuel + 1, draft, before, c :: rest =>
    match c with
    | '?' => readFrom fuel (draft.push .anyByte) (some c) rest
    | '*' =>
      match rest with
      | '*' :: after =>
        let (draft, left) := readStars draft before after
        let last := if left.length < after.length then after.head? else some '*'
        readFrom fuel draft last left
      | _ => readFrom fuel (draft.push .anyBytes) (some c) rest
    | '[' =>
      let (negated, body) :=
        match rest with
        | '!' :: body => (true, body)
        | '^' :: body => (true, body)
        | _ => (false, rest)
      match readClass {} body with
      | .error fault => .error fault
      | .ok (ranges, left) => readFrom fuel (draft.push (.oneOf negated ranges)) (some ']') left
    | '\x7b' =>
      readFrom fuel ⟨[], [], (draft.current, draft.complete) :: draft.outer⟩ (some c) rest
    | '\x7d' =>
      match draft.outer with
      | [] => .error .unopenedAlternates
      | (current, complete) :: outer =>
        let branches := (draft.current :: draft.complete).reverse.map List.reverse
        readFrom fuel ⟨.alternatives branches :: current, complete, outer⟩ (some c) rest
    | ',' =>
      if draft.isNested then
        readFrom fuel { draft with current := [], complete := draft.current :: draft.complete }
          (some c) rest
      else readFrom fuel (draft.push (.literal ',')) (some c) rest
    | '\\' =>
      match rest with
      | [] => .error .danglingEscape
      | escaped :: left => readFrom fuel (draft.push (.literal escaped)) (some escaped) left
    | _ => readFrom fuel (draft.push (.literal c)) (some c) rest

/-- Reads a mask. -/
def parse (text : String) : Except MaskFault Mask :=
  let chars := text.toList
  match readFrom chars.length {} none chars with
  | .error fault => .error fault
  | .ok draft => if draft.isNested then .error .unclosedAlternates else .ok draft.current.reverse

/-! ### Matching -/

/-- The letters `A` to `Z` made small. -/
def lowerByte (byte : UInt8) : UInt8 :=
  if 0x41 ≤ byte && byte ≤ 0x5A then byte + 0x20 else byte

/-- Two bytes match, up to letter case. -/
def sameByte (left right : UInt8) : Bool :=
  lowerByte left == lowerByte right

private def spansOf (range : Char × Char) : List (UInt8 × UInt8) :=
  let single (byte : UInt8) := (byte, byte)
  let first := String.utf8EncodeChar range.1
  if range.1 == range.2 then first.map single
  else
    let last := String.utf8EncodeChar range.2
    let joint := (first.getLast?.getD 0, last.head?.getD 0)
    first.dropLast.map single ++ [joint] ++ last.tail.map single

private def upperByte (byte : UInt8) : UInt8 :=
  if 0x61 ≤ byte && byte ≤ 0x7A then byte - 0x20 else byte

/-- The byte lies in one of the ranges, in either case. A character of several bytes counts as
its bytes, one by one. -/
def inClass (ranges : List (Char × Char)) (byte : UInt8) : Bool :=
  (ranges.flatMap spansOf).any fun span =>
    let holds (b : UInt8) : Bool := span.1 ≤ b && b ≤ span.2
    holds byte || holds (lowerByte byte) || holds (upperByte byte)

/-- What can be left of a name once a front part has matched: tails of the name, longest first. -/
abbrev Rests := List (List UInt8)

/-- Every tail of the bytes, the whole included. -/
def tails : List UInt8 → Rests
  | [] => [[]]
  | byte :: rest => (byte :: rest) :: tails rest

/-- The rests of both lists, each once. -/
def union : Rests → Rests → Rests
  | [], right => right
  | rest :: left, right =>
    let length := rest.length
    let isLonger (other : List UInt8) : Bool := length < other.length
    right.takeWhile isLonger ++
      rest :: union left ((right.dropWhile isLonger).dropWhile (· == rest))

/-- What is left after any bytes: the tails of the longest rest, which all others are among. -/
def afterAny : Rests → Rests
  | [] => []
  | longest :: _ => tails longest

/-- What is left after one byte that satisfies the test. -/
def afterByte (holds : UInt8 → Bool) (rests : Rests) : Rests :=
  rests.filterMap fun rest => match rest with
    | [] => none
    | byte :: left => if holds byte then some left else none

/-- What is left after a separator. -/
def afterSeparator : Rests → Rests :=
  afterByte (· == 0x2F)

/-- What is left after literal bytes. -/
def afterLiteral (literal : List UInt8) (rests : Rests) : Rests :=
  literal.foldl (fun rests byte => afterByte (sameByte byte) rests) rests

mutual

/-- The piece matches nothing but the empty text, because all its branches are empty. -/
def MaskPiece.isVoid : MaskPiece → Bool
  | .alternatives branches => allVoid branches
  | _ => false

/-- Every branch is void. -/
def allVoid : List (List MaskPiece) → Bool
  | [] => true
  | branch :: rest => isVoid branch && allVoid rest

/-- Every piece is void. -/
def isVoid : List MaskPiece → Bool
  | [] => true
  | piece :: rest => MaskPiece.isVoid piece && isVoid rest

end

mutual

/-- What is left after the piece. -/
def advance : MaskPiece → Rests → Rests
  | .literal c, rests => afterLiteral (String.utf8EncodeChar c) rests
  | .anyByte, rests => afterByte (fun _ => true) rests
  | .anyBytes, rests => afterAny rests
  | .leadingDirs, rests => union rests (afterSeparator (afterAny rests))
  | .trailingDirs, rests => afterAny (afterSeparator rests)
  | .innerDirs, rests =>
    let inner := afterSeparator rests
    union inner (afterSeparator (afterAny inner))
  | .oneOf negated ranges, rests => afterByte (fun byte => inClass ranges byte != negated) rests
  | .alternatives branches, rests =>
    if allVoid branches then rests else advanceSome branches rests

/-- What is left after one of the branches that are not void. -/
def advanceSome : List (List MaskPiece) → Rests → Rests
  | [], _ => []
  | branch :: others, rests =>
    let left := if isVoid branch then [] else advanceAll branch rests
    union left (advanceSome others rests)

/-- What is left after all pieces in order. -/
def advanceAll : List MaskPiece → Rests → Rests
  | [], rests => rests
  | piece :: pieces, rests => advanceAll pieces (advance piece rests)

end

/-- The mask matches the whole name, so that nothing is left. Two stars alone match everything. -/
def accepts (mask : Mask) (name : String) : Bool :=
  match mask with
  | [.leadingDirs] => true
  | pieces =>
    (advanceAll pieces [name.toList.flatMap String.utf8EncodeChar]).any List.isEmpty

end Mask
end Clarion
