import Clarion.Json.Number

/-! Reading JSON text. Every function returns the value read and the characters left over, or no
characters when a fault ended the reading. -/
namespace Clarion.Json

/-- Drops the four blanks of the grammar. -/
def dropSpace (chars : List Char) : List Char :=
  chars.dropWhile fun c => c == ' ' || c == '\n' || c == '\t' || c == '\r'

/-! ### Strings -/

/-- A piece of a string: a plain character or a 16-bit unit written as an escape. -/
inductive Piece where
  | plain (c : Char)
  | unit (code : Nat)
deriving Repr, DecidableEq

private def hexValue (c : Char) : Option Nat :=
  if '0' ≤ c ∧ c ≤ '9' then some (c.toNat - '0'.toNat)
  else if 'a' ≤ c ∧ c ≤ 'f' then some (c.toNat - 'a'.toNat + 10)
  else if 'A' ≤ c ∧ c ≤ 'F' then some (c.toNat - 'A'.toNat + 10)
  else none

private def hexUnit (a b c d : Char) : Option Nat := do
  let high ← hexValue a
  let midHigh ← hexValue b
  let midLow ← hexValue c
  let low ← hexValue d
  return ((high * 16 + midHigh) * 16 + midLow) * 16 + low

private def simpleEscape : Char → Option Char
  | '"' => some '"'
  | '\\' => some '\\'
  | '/' => some '/'
  | 'b' => some '\x08'
  | 'f' => some '\x0c'
  | 'n' => some '\n'
  | 'r' => some '\r'
  | 't' => some '\t'
  | _ => none

private def byteCount (chars : List Char) : Nat :=
  chars.foldl (fun total c => total + c.utf8Size) 0

/-- The pieces up to the closing quote, with the fault that ended the string early. -/
def pieces : List Char → List Piece × Option Fault × List Char
  | [] => ([], some .truncated, [])
  | '"' :: rest => ([], none, rest)
  | '\\' :: 'u' :: a :: b :: c :: d :: rest =>
    match hexUnit a b c d with
    | some code =>
      let (later, fault, left) := pieces rest
      (.unit code :: later, fault, left)
    | none => ([], some .malformed, [])
  | '\\' :: 'u' :: rest =>
    ([], some (if byteCount rest < 4 then .truncated else .malformed), [])
  | ['\\'] => ([], some .truncated, [])
  | '\\' :: c :: rest =>
    match simpleEscape c with
    | some plain =>
      let (later, fault, left) := pieces rest
      (.plain plain :: later, fault, left)
    | none => ([], some .malformed, [])
  | c :: rest =>
    if c.toNat < 0x20 then ([], some .malformed, [])
    else
      let (later, fault, left) := pieces rest
      (.plain c :: later, fault, left)

private def isHigh (code : Nat) : Bool := 0xD800 ≤ code && code ≤ 0xDBFF

private def isLow (code : Nat) : Bool := 0xDC00 ≤ code && code ≤ 0xDFFF

/-- The characters that pieces denote. Units outside the plane come in pairs; a unit of a pair
that stands alone is a fault, which is `atEnd` when the string broke off right after it. -/
def assemble (atEnd : Fault) : List Piece → Except Fault (List Char)
  | [] => .ok []
  | .plain c :: rest => (assemble atEnd rest).map (c :: ·)
  | .unit high :: .unit low :: rest =>
    if isHigh high then
      if isLow low then
        let code := 0x10000 + (high - 0xD800) * 0x400 + (low - 0xDC00)
        (assemble atEnd rest).map (Char.ofNat code :: ·)
      else .error .malformed
    else if isLow high then .error .malformed
    else (assemble atEnd (.unit low :: rest)).map (Char.ofNat high :: ·)
  | .unit code :: rest =>
    if isHigh code then .error (if rest.isEmpty then atEnd else .malformed)
    else if isLow code then .error .malformed
    else (assemble atEnd rest).map (Char.ofNat code :: ·)

/-- A string after its opening quote. -/
def readString (chars : List Char) : Json × Rest :=
  let (found, formFault, left) := pieces chars
  let value :=
    match assemble (formFault.getD .malformed) found, formFault with
    | .ok text, none => .str (String.ofList text)
    | .ok _, some fault => .flaw (.string fault formFault)
    | .error fault, _ => .flaw (.string fault formFault)
  (value, if formFault.isSome then none else some left)

/-! ### Values -/

private def readWord (word : List Char) (value : Json) (wrong : Fault → Flaw) :
    List Char → Json × Rest
  | chars =>
    match word, chars with
    | [], _ => (value, some chars)
    | _ :: _, [] => (.flaw (wrong .truncated), none)
    | w :: word', c :: rest =>
      if w = c then readWord word' value wrong rest else (.flaw (wrong .malformed), none)

private def missing (fault : Fault) : Json × Rest :=
  (.flaw (.absent fault), none)

mutual

/-- One value; `fuel` bounds the depth and length of what is read. -/
def readValue : Nat → List Char → Json × Rest
  | 0, _ => missing .malformed
  | fuel + 1, chars =>
    match dropSpace chars with
    | [] => missing .truncated
    | 'n' :: rest => readWord ['u', 'l', 'l'] .null .nullWord rest
    | 't' :: rest => readWord ['r', 'u', 'e'] (.bool true) .truthWord rest
    | 'f' :: rest => readWord ['a', 'l', 's', 'e'] (.bool false) .truthWord rest
    | '"' :: rest => readString rest
    | '-' :: rest => readNumber true rest
    | '[' :: rest =>
      match dropSpace rest with
      | ']' :: left => (.arr [], some left)
      | left =>
        let (items, stop, after) := readItems fuel left
        (.arr items stop, after)
    | '\x7b' :: rest =>
      match dropSpace rest with
      | '\x7d' :: left => (.obj [], some left)
      | left =>
        let (members, stop, after) := readMembers fuel false left
        (.obj members stop, after)
    | c :: rest => if c.isDigit then readNumber false (c :: rest) else missing .malformed

/-- The items of an array that has at least one. -/
def readItems : Nat → List Char → List Json × Option Fault × Rest
  | 0, _ => ([], some .malformed, none)
  | fuel + 1, chars =>
    match readValue fuel chars with
    | (item, none) => ([item], none, none)
    | (item, some left) =>
      match dropSpace left with
      | ']' :: after => ([item], none, some after)
      | ',' :: after =>
        let (later, stop, final) := readItems fuel after
        (item :: later, stop, final)
      | [] => ([item], some .truncated, none)
      | _ => ([item], some .malformed, none)

/-- The members of an object that has at least one, the first of them after a comma or not. A key
that denotes no text stops whoever reads keys; whoever passes over the object goes on after it. -/
def readMembers : Nat → Bool → List Char → List (String × Json) × Option Stop × Rest
  | 0, afterComma, _ => ([], some ⟨.malformed, some .malformed, afterComma⟩, none)
  | fuel + 1, afterComma, chars =>
    match dropSpace chars with
    | '"' :: rest =>
      match readString rest with
      | (.str key, some left) => readMember fuel key left
      | (.flaw place, some left) =>
        let (members, stop, after) := readMember fuel "" left
        ([], some ⟨place.onRead, (Json.obj members stop).skip, afterComma⟩, after)
      | (.flaw place, none) => ([], some ⟨place.onRead, place.onSkip, afterComma⟩, none)
      | _ => ([], some ⟨.malformed, some .malformed, afterComma⟩, none)
    | [] => ([], some ⟨.truncated, some .truncated, afterComma⟩, none)
    | _ => ([], some ⟨.malformed, some .malformed, afterComma⟩, none)

/-- The member whose key has been read, and those after it. -/
def readMember : Nat → String → List Char → List (String × Json) × Option Stop × Rest
  | 0, _, _ => ([], some ⟨.malformed, some .malformed, false⟩, none)
  | fuel + 1, key, chars =>
    match dropSpace chars with
    | ':' :: after =>
      match readValue fuel after with
      | (value, none) => ([(key, value)], none, none)
      | (value, some left) =>
        match dropSpace left with
        | '\x7d' :: after => ([(key, value)], none, some after)
        | ',' :: after =>
          let (later, stop, final) := readMembers fuel true after
          ((key, value) :: later, stop, final)
        | [] => ([(key, value)], some ⟨.truncated, some .truncated, false⟩, none)
        | _ => ([(key, value)], some ⟨.malformed, some .malformed, false⟩, none)
    | [] => ([(key, .flaw (.absent .truncated))], none, none)
    | _ => ([(key, .flaw (.absent .malformed))], none, none)

end

/-- A text read to its end: its value, and the fault of what follows the value. -/
structure Document where
  value : Json
  after : Option Fault

/-- Reads a whole text. -/
def read (text : String) : Document :=
  let chars := text.toList
  match readValue (3 * chars.length + 3) chars with
  | (value, some left) => ⟨value, if (dropSpace left).isEmpty then none else some .malformed⟩
  | (value, none) => ⟨value, none⟩

/-- The value of a text without faults. -/
def parse? (text : String) : Option Json :=
  let document := read text
  if document.after.isSome || document.value.skip.isSome then none else some document.value

end Clarion.Json
