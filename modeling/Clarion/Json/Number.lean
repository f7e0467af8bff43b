import Clarion.Json.Basic

/-! Numbers in JSON text. The value of a number that is not an integer of the 64-bit range is not
kept; only whether it lies past the largest double decides how its text is taken. It is judged by
what is kept of its digits: as many as stay below 2 ^ 64, and a power of ten. -/
namespace Clarion.Json

/-- What a reader leaves behind: the remaining characters, or nothing after a fault. -/
abbrev Rest := Option (List Char)

/-- A number `significand · 10 ^ exponent`. -/
structure Decimal where
  significand : Nat
  exponent : Int := 0
deriving Repr, DecidableEq

namespace Decimal

private def digitValue (c : Char) : Nat :=
  c.toNat - '0'.toNat

/-- The number with the digits before the point. From the first digit on that takes the significand
past 64 bits, every digit counts as one power of ten. -/
def ofWhole (significand : Nat) : List Char → Decimal
  | [] => ⟨significand, 0⟩
  | digit :: rest =>
    let next := significand * 10 + digitValue digit
    if next < Nat.pow 2 64 then ofWhole next rest else ⟨significand, rest.length + 1⟩

/-- The number with the digits after the point. From the first digit on that takes the significand
past 64 bits, digits are dropped. -/
def withPlaces (number : Decimal) : List Char → Decimal
  | [] => number
  | digit :: rest =>
    let next := number.significand * 10 + digitValue digit
    if next < Nat.pow 2 64 then withPlaces ⟨next, number.exponent - 1⟩ rest else number

/-- The number nearest to `n` that has 53 significant bits; of two, the even one. -/
def roundToDouble (n : Nat) : Nat :=
  let unit := Nat.pow 2 (n.log2 + 1 - 53)
  let whole := n / unit
  let part := 2 * (n % unit)
  let rounded := if part > unit || (part == unit && whole % 2 == 1) then whole + 1 else whole
  rounded * unit

/-- Whether the product of the significand and the power of ten, each rounded to a double, lies past
the largest double. Of a number with a negative exponent it never does. -/
def isHuge (number : Decimal) : Bool :=
  if number.significand = 0 ∨ number.exponent < 0 then false
  else if number.exponent > 308 then true
  else
    roundToDouble number.significand * roundToDouble (Nat.pow 10 number.exponent.toNat) ≥
      Nat.pow 2 1024 - Nat.pow 2 970

/-- The value of a number that is written with a point or an exponent, or is too long. -/
def toReal (number : Decimal) : Json :=
  if number.isHuge then .flaw .hugeNumber else .real

end Decimal

private def digitsOf (chars : List Char) : List Char × List Char :=
  (chars.takeWhile Char.isDigit, chars.dropWhile Char.isDigit)

private def brokenNumber (chars : List Char) : Json × Rest :=
  (.flaw (.number (if chars.isEmpty then .truncated else .malformed)), none)

private def readExponent (number : Decimal) (chars : List Char) : Json × Rest :=
  let (negative, unsigned) :=
    match chars with
    | '+' :: rest => (false, rest)
    | '-' :: rest => (true, rest)
    | _ => (false, chars)
  let (found, left) := digitsOf unsigned
  if found.isEmpty then brokenNumber unsigned
  else
    let written : Int := found.foldl (fun total c => total * 10 + (c.toNat - '0'.toNat : Nat)) 0
    let exponent := number.exponent + if negative then -written else written
    (({ number with exponent := exponent } : Decimal).toReal, some left)

private def integerValue (negative : Bool) (number : Decimal) : Json :=
  if number.exponent ≠ 0 then number.toReal
  else if negative then
    if number.significand = 0 ∨ number.significand > Nat.pow 2 63 then .real
    else .int (-(number.significand : Int))
  else .int number.significand

private def readFraction (negative : Bool) (whole : Decimal) (chars : List Char) : Json × Rest :=
  match chars with
  | '.' :: rest =>
    let (found, left) := digitsOf rest
    if found.isEmpty then brokenNumber rest
    else
      let number := whole.withPlaces found
      match left with
      | 'e' :: power => readExponent number power
      | 'E' :: power => readExponent number power
      | _ => (number.toReal, some left)
  | 'e' :: power => readExponent whole power
  | 'E' :: power => readExponent whole power
  | _ => (integerValue negative whole, some chars)

/-- A number after its sign, if it has one. -/
def readNumber (negative : Bool) (chars : List Char) : Json × Rest :=
  match digitsOf chars with
  | ([], _) => brokenNumber chars
  | ('0' :: _ :: _, _) => (.flaw (.number .malformed), none)
  | (whole, left) => readFraction negative (.ofWhole 0 whole) left

end Clarion.Json
