/-! Text in UTF-8. Bytes that are no character are found in maximal stretches, each of which a
lenient reader replaces by one mark. -/
namespace Clarion.Text

/-- A byte that goes on with a character. -/
def isTail (byte : UInt8) : Bool :=
  0x80 ≤ byte && byte ≤ 0xBF

private def within (low high byte : UInt8) : Bool :=
  low ≤ byte && byte ≤ high

private def bits (byte mask : UInt8) : Nat :=
  (byte &&& mask).toNat

/-- The second byte can follow the first of a character of three bytes. -/
private def startsThree (a b : UInt8) : Bool :=
  (a == 0xE0 && within 0xA0 0xBF b) || (within 0xE1 0xEC a && isTail b) ||
  (a == 0xED && within 0x80 0x9F b) || (within 0xEE 0xEF a && isTail b)

/-- The second byte can follow the first of a character of four bytes. -/
private def startsFour (a b : UInt8) : Bool :=
  (a == 0xF0 && within 0x90 0xBF b) || (within 0xF1 0xF3 a && isTail b) ||
  (a == 0xF4 && within 0x80 0x8F b)

/-- The characters of the bytes, with nothing for each maximal stretch that is no character. -/
def decodeBytes : List UInt8 → List (Option Char)
  | [] => []
  | a :: rest =>
    if a < 0x80 then some (Char.ofNat a.toNat) :: decodeBytes rest
    else
      match rest with
      | [] => [none]
      | b :: rest₂ =>
        if within 0xC2 0xDF a && isTail b then
          some (Char.ofNat (bits a 0x1F * 0x40 + bits b 0x3F)) :: decodeBytes rest₂
        else if startsThree a b then
          match rest₂ with
          | [] => [none]
          | c :: rest₃ =>
            if isTail c then
              some (Char.ofNat ((bits a 0x0F * 0x40 + bits b 0x3F) * 0x40 + bits c 0x3F)) ::
                decodeBytes rest₃
            else none :: decodeBytes (c :: rest₃)
        else if startsFour a b then
          match rest₂ with
          | [] => [none]
          | c :: rest₃ =>
            if isTail c then
              match rest₃ with
              | [] => [none]
              | d :: rest₄ =>
                if isTail d then
                  some (Char.ofNat (((bits a 0x07 * 0x40 + bits b 0x3F) * 0x40 + bits c 0x3F) * 0x40
                    + bits d 0x3F)) :: decodeBytes rest₄
                else none :: decodeBytes (d :: rest₄)
            else none :: decodeBytes (c :: rest₃)
        else none :: decodeBytes (b :: rest₂)

/-- The text of the bytes, with a replacement mark for each stretch that is no character. -/
def decodeLenient (bytes : List UInt8) : String :=
  String.ofList ((decodeBytes bytes).map (·.getD (Char.ofNat 0xFFFD)))

/-- The text of the bytes, when all of them are characters. -/
def decodeStrict? (bytes : List UInt8) : Option String :=
  let chars := decodeBytes bytes
  if chars.all Option.isSome then some (String.ofList (chars.filterMap id)) else none

/-- The bytes of a text. -/
def encode (text : String) : List UInt8 :=
  text.toList.flatMap String.utf8EncodeChar

end Clarion.Text
