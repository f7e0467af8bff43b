/-! Text as the language and its tools see it: blanks, which are the characters with the Unicode
property `White_Space`; letter case, which only the letters `A` to `Z` have, so that a name compares
by folding those and leaving every other character alone; and cutting at separators and into
lines. -/
namespace Clarion.Text

/-! ### Blanks -/

/-- A character with the property `White_Space`. -/
def isBlank (c : Char) : Bool :=
  let code := c.toNat
  (0x09 ≤ code && code ≤ 0x0D) || code == 0x20 || code == 0x85 || code == 0xA0 ||
  code == 0x1680 || (0x2000 ≤ code && code ≤ 0x200A) || code == 0x2028 || code == 0x2029 ||
  code == 0x202F || code == 0x205F || code == 0x3000

/-- Characters without the trailing ones that satisfy the test. -/
def dropEndWhile (test : Char → Bool) (chars : List Char) : List Char :=
  (chars.reverse.dropWhile test).reverse

/-- Characters without leading and trailing blanks. -/
def trimChars (chars : List Char) : List Char :=
  dropEndWhile isBlank (chars.dropWhile isBlank)

/-- Text without leading and trailing blanks. -/
def trim (text : String) : String :=
  String.ofList (trimChars text.toList)

/-! ### Letter case -/

/-- The text with the letters `A` to `Z` made small. -/
def foldLower (text : String) : String :=
  String.ofList (text.toList.map Char.toLower)

/-- The text with the letters `a` to `z` made capital. -/
def foldUpper (text : String) : String :=
  String.ofList (text.toList.map Char.toUpper)

/-- Equal up to the case of the letters `A` to `Z`. -/
def sameFold (left right : String) : Bool :=
  left.toList.map Char.toLower == right.toList.map Char.toLower

/-- The text ends with `tail`, up to the case of the letters `A` to `Z`. -/
def endsWithFold (text tail : String) : Bool :=
  (tail.toList.map Char.toLower).isSuffixOf (text.toList.map Char.toLower)

/-- The text is one of the words, up to the case of the letters `A` to `Z`. -/
def isOneOfFold (text : String) (words : List String) : Bool :=
  words.any (sameFold text)

/-! ### Cutting -/

/-- The parts between the characters that satisfy the test; always at least one part. -/
def splitChars (test : Char → Bool) : List Char → List (List Char)
  | [] => [[]]
  | c :: rest =>
    if test c then [] :: splitChars test rest
    else
      match splitChars test rest with
      | [] => [[c]]
      | part :: parts => (c :: part) :: parts

/-- The parts of a text between the characters that satisfy the test. -/
def splitWhere (test : Char → Bool) (text : String) : List String :=
  (splitChars test text.toList).map String.ofList

/-- What stands before and after the first `sep`, when there is one. -/
def cutChars (sep : Char) : List Char → Option (List Char × List Char)
  | [] => none
  | c :: rest =>
    if c = sep then some ([], rest)
    else (cutChars sep rest).map fun cut => (c :: cut.1, cut.2)

/-- What stands before and after the first `sep`, when there is one. -/
def cut (sep : Char) (text : String) : Option (String × String) :=
  (cutChars sep text.toList).map fun parts => (String.ofList parts.1, String.ofList parts.2)

private def dropReturn (line : List Char) : List Char :=
  match line.reverse with
  | '\r' :: rest => rest.reverse
  | _ => line

/-- Lines end at a line feed, with one carriage return before it dropped; a text that ends in a
line feed has no empty line after it. -/
def lines (text : String) : List String :=
  let parts := splitChars (· == '\n') text.toList
  let closed := parts.dropLast.map dropReturn
  let last := parts.getLastD []
  (if last.isEmpty then closed else closed ++ [last]).map String.ofList

/-- `sub` occurs in the characters. -/
def hasInfix (sub : List Char) : List Char → Bool
  | [] => sub.isEmpty
  | c :: rest => sub.isPrefixOf (c :: rest) || hasInfix sub rest

/-- `sub` occurs in the text. -/
def contains (text sub : String) : Bool :=
  hasInfix sub.toList text.toList

/-- The first `size` bytes of the text, when a character ends there. -/
def headBytes? : Nat → List Char → Option (List Char)
  | 0, _ => some []
  | _, [] => none
  | size, c :: rest =>
    if c.utf8Size ≤ size then (headBytes? (size - c.utf8Size) rest).map (c :: ·) else none

end Clarion.Text
