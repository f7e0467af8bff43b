import Clarion.Json.Basic

/-! Writing JSON text: on one line without blanks, or indented by two blanks a level. -/
namespace Clarion.Json

private def hexDigit (n : Nat) : Char :=
  if n < 10 then Char.ofNat ('0'.toNat + n) else Char.ofNat ('a'.toNat + (n - 10))

/-- How a character stands inside a string. -/
def escapeChar (c : Char) : List Char :=
  if c = '"' then ['\\', '"']
  else if c = '\\' then ['\\', '\\']
  else if c = '\n' then ['\\', 'n']
  else if c = '\r' then ['\\', 'r']
  else if c = '\t' then ['\\', 't']
  else if c = '\x08' then ['\\', 'b']
  else if c = '\x0c' then ['\\', 'f']
  else if c.toNat < 0x20 then
    ['\\', 'u', '0', '0', hexDigit (c.toNat / 16), hexDigit (c.toNat % 16)]
  else [c]

/-- A string in quotes. -/
def quote (text : String) : String :=
  String.ofList ('"' :: text.toList.flatMap escapeChar ++ ['"'])

mutual

/-- The value on one line. -/
def render : Json → String
  | .null => "null"
  | .bool true => "true"
  | .bool false => "false"
  | .int value => toString value
  | .real => "null"
  | .str text => quote text
  | .arr items _ => "[" ++ String.intercalate "," (renderItems items) ++ "]"
  | .obj members _ => "\x7b" ++ String.intercalate "," (renderMembers members) ++ "\x7d"
  | .flaw _ => "null"

/-- The items of an array, each on one line. -/
def renderItems : List Json → List String
  | [] => []
  | item :: rest => render item :: renderItems rest

/-- The members of an object, each on one line. -/
def renderMembers : List (String × Json) → List String
  | [] => []
  | (key, value) :: rest => (quote key ++ ":" ++ render value) :: renderMembers rest

end

private def indent (level : Nat) : String :=
  String.ofList (List.replicate (2 * level) ' ')

private def block (opening closing : String) (level : Nat) (lines : List String) : String :=
  if lines.isEmpty then opening ++ closing
  else
    let inner := lines.map fun line => indent (level + 1) ++ line
    opening ++ "\n" ++ String.intercalate ",\n" inner ++ "\n" ++ indent level ++ closing

mutual

/-- The value on several lines, nested `level` deep. -/
def prettyAt (level : Nat) : Json → String
  | .arr items _ => block "[" "]" level (prettyItems (level + 1) items)
  | .obj members _ => block "\x7b" "\x7d" level (prettyMembers (level + 1) members)
  | other => render other

/-- The items of an array nested `level` deep. -/
def prettyItems (level : Nat) : List Json → List String
  | [] => []
  | item :: rest => prettyAt level item :: prettyItems level rest

/-- The members of an object nested `level` deep. -/
def prettyMembers (level : Nat) : List (String × Json) → List String
  | [] => []
  | (key, value) :: rest => (quote key ++ ": " ++ prettyAt level value) :: prettyMembers level rest

end

/-- The value on several lines. -/
def pretty (value : Json) : String :=
  prettyAt 0 value

end Clarion.Json
