import Clarion.Xml.Event

/-! References inside text and attribute values, and the values of attributes. -/
namespace Clarion.Xml

private def digitOf? (base : Nat) (c : Char) : Option Nat :=
  let digit :=
    if c.isDigit then c.toNat - '0'.toNat
    else if 'a' ≤ c ∧ c ≤ 'f' then c.toNat - 'a'.toNat + 10
    else if 'A' ≤ c ∧ c ≤ 'F' then c.toNat - 'A'.toNat + 10
    else base
  if digit < base then some digit else none

/-- The number that digits stand for; there has to be one, and all of them have to be digits. -/
def numberOf? (base : Nat) (digits : List Char) : Option Nat :=
  if digits.isEmpty then none
  else digits.foldlM (fun total c => (digitOf? base c).map (total * base + ·)) 0

/-- The character of a code, other than zero. -/
def charOf? (code : Nat) : Option Char :=
  if code ≠ 0 ∧ code.isValidChar then some (Char.ofNat code) else none

/-- The character that a reference stands for, by what is written between `&` and `;`. -/
def referred? (name : List Char) : Option Char :=
  match name with
  | '#' :: 'x' :: digits => (numberOf? 16 digits).bind charOf?
  | '#' :: digits => (numberOf? 10 digits).bind charOf?
  | _ =>
    match String.ofList name with
    | "lt" => some '<'
    | "gt" => some '>'
    | "amp" => some '&'
    | "apos" => some '\''
    | "quot" => some '"'
    | _ => none

/-- Text with its references replaced; `name` holds a reference being read, last character first.
Nothing when a reference is unknown or not ended. -/
def resolveFrom (name : Option (List Char)) : List Char → Option (List Char)
  | [] => if name.isSome then none else some []
  | c :: rest =>
    match name with
    | none => if c == '&' then resolveFrom (some []) rest else (resolveFrom none rest).map (c :: ·)
    | some read =>
      if c == '&' then none
      else if c == ';' then
        match referred? read.reverse with
        | none => none
        | some found => (resolveFrom none rest).map (found :: ·)
      else resolveFrom (some (c :: read)) rest

/-- Text with its references replaced. -/
def resolve? (raw : List Char) : Option (List Char) :=
  resolveFrom none raw

/-- The first attribute of the written ones: its name, its value as written, and the rest. Nothing
at the end, and a fault when it is not well formed. -/
def nextAttribute (chars : List Char) :
    Option (Except Unit (List Char × List Char × List Char)) :=
  match chars.dropWhile isSpace with
  | [] => none
  | first :: rest =>
    let isEnd (c : Char) : Bool := c == '=' || isSpace c
    let key := first :: rest.takeWhile (!isEnd ·)
    match (rest.dropWhile (!isEnd ·)).dropWhile isSpace with
    | '=' :: after =>
      match after.dropWhile isSpace with
      | quote :: body =>
        if quote == '"' || quote == '\'' then
          match body.dropWhile (· != quote) with
          | _ :: left => some (.ok (key, body.takeWhile (· != quote), left))
          | [] => some (.error ())
        else some (.error ())
      | [] => some (.error ())
    | _ => some (.error ())

end Clarion.Xml
