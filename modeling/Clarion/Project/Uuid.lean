/-! Identifiers of 128 bits. -/
namespace Clarion

/-- An identifier by its hexadecimal digits, in small letters. -/
structure Uuid where
  digits : List Char
deriving Repr, DecidableEq

namespace Uuid

private def isHex (c : Char) : Bool :=
  c.isDigit || ('a' ≤ c.toLower && c.toLower ≤ 'f')

private def ofDigits? (digits : List Char) : Option Uuid :=
  if digits.length = 32 ∧ digits.all isHex then some ⟨digits.map Char.toLower⟩ else none

/-- Digits in groups of 8, 4, 4, 4 and 12 with hyphens between. -/
def ofGrouped? (chars : List Char) : Option Uuid :=
  let hyphens := [8, 13, 18, 23].all fun index => chars[index]? == some '-'
  if chars.length = 36 ∧ hyphens then
    ofDigits? (chars.take 8 ++ (chars.drop 9).take 4 ++ (chars.drop 14).take 4 ++
      (chars.drop 19).take 4 ++ chars.drop 24)
  else none

/-- Reads an identifier: plain digits, or grouped digits, which may stand in braces or after the
name of their scheme in letters of either case. -/
def parse? (text : String) : Option Uuid :=
  let chars := text.toList
  if chars.length = 32 then ofDigits? chars
  else if chars.length = 36 then ofGrouped? chars
  else if chars.length = 38 then
    if chars.head? == some '\x7b' && chars.getLast? == some '\x7d' then
      ofGrouped? (chars.drop 1).dropLast
    else none
  else if chars.length = 45 ∧ (chars.take 9).map Char.toLower = "urn:uuid:".toList then
    ofGrouped? (chars.drop 9)
  else none

/-- The digits in groups with hyphens between. -/
def text (uuid : Uuid) : String :=
  let digits := uuid.digits
  String.ofList (digits.take 8 ++ '-' :: (digits.drop 8).take 4 ++ '-' :: (digits.drop 12).take 4 ++
    '-' :: (digits.drop 16).take 4 ++ '-' :: digits.drop 20)

end Uuid
end Clarion
