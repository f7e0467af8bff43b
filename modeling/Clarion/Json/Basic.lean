/-! JSON values, and what can be wrong with a text or a value.

A text with a fault is still read as far as it goes: a place where no value can be read stands in
the value as a `flaw`, and an array or object that breaks off says so in its `stop`. Whoever decodes
the value from left to right then meets either a value of the wrong shape or the fault, whichever
comes first in the text. Which fault a place has can depend on what the decoder wants there. -/
namespace Clarion

/-- What is wrong with a JSON text. -/
inductive Fault where
  /-- The text breaks the grammar. -/
  | malformed
  /-- The text ends inside a value. -/
  | truncated
  /-- The text is well formed, and its value has the wrong shape. -/
  | mistyped
deriving Repr, DecidableEq

/-- The name of a fault's category. -/
def Fault.category : Fault → String
  | .malformed => "syntax"
  | .truncated => "eof"
  | .mistyped => "data"

/-- A place where no value can be read, by what stands there. -/
inductive Flaw where
  /-- Nothing that a value could begin with. -/
  | absent (fault : Fault)
  /-- A word that begins like `null` and goes on otherwise. -/
  | nullWord (fault : Fault)
  /-- A word that begins like `true` or `false` and goes on otherwise. -/
  | truthWord (fault : Fault)
  /-- A number that breaks off or goes wrong. -/
  | number (fault : Fault)
  /-- A number past the largest double. -/
  | hugeNumber
  /-- A string that breaks off or denotes no text; `formFault` is what is wrong with its written
  form alone. -/
  | string (fault : Fault) (formFault : Option Fault)
deriving Repr, DecidableEq

namespace Flaw

/-- The fault met by whoever wants a string, a number, a truth value, an array or an object. -/
def onRead : Flaw → Fault
  | .absent fault | .nullWord fault | .truthWord fault | .number fault => fault
  | .hugeNumber => .malformed
  | .string fault _ => fault

/-- The fault met when the place is passed over; there is none where the written form is right. -/
def onSkip : Flaw → Option Fault
  | .absent fault | .nullWord fault | .truthWord fault => some fault
  | .number _ => some .malformed
  | .hugeNumber => none
  | .string _ formFault => formFault

/-- The fault met by whoever wants a choice: only a string or an object can hold one, so the first
character of anything else is wrong. -/
def onChoice : Flaw → Fault
  | .absent fault => fault
  | .string fault _ => fault
  | _ => .malformed

end Flaw

/-- Where and how the members of an object break off. -/
structure Stop where
  fault : Fault
  /-- The fault met when the object is passed over; there is none if only a key is wrong that
  nobody reads. -/
  onSkip : Option Fault
  /-- Whether a comma announced another member. -/
  afterComma : Bool
deriving Repr, DecidableEq

/-- The fault met by whoever takes the object for a choice, which has a single member: a comma is
wrong already. -/
def Stop.onChoice (stop : Stop) : Fault :=
  if stop.afterComma then .malformed else stop.fault

/-- A JSON value. Numbers that are not integers of the 64-bit range are only known to be `real`. -/
inductive Json where
  | null
  | bool (value : Bool)
  | int (value : Int)
  | real
  | str (text : String)
  /-- An array; with a `stop`, neither a comma nor a bracket followed its last item. -/
  | arr (items : List Json) (stop : Option Fault := none)
  /-- An object; with a `stop`, its members break off there. -/
  | obj (members : List (String × Json)) (stop : Option Stop := none)
  | flaw (place : Flaw)
deriving Repr, Inhabited

namespace Json

/-- The value under a key; the first one, where a key is repeated. -/
def get? (key : String) : Json → Option Json
  | .obj members _ => members.lookup key
  | _ => none

mutual

/-- The first fault met when a value is passed over without being decoded. -/
def skip : Json → Option Fault
  | .arr items stop => (skipItems items).or stop
  | .obj members stop => (skipMembers members).or (stop.bind Stop.onSkip)
  | .flaw place => place.onSkip
  | _ => none

/-- The first fault met when items are passed over. -/
def skipItems : List Json → Option Fault
  | [] => none
  | item :: rest => (skip item).or (skipItems rest)

/-- The first fault met when members are passed over. -/
def skipMembers : List (String × Json) → Option Fault
  | [] => none
  | (_, value) :: rest => (skip value).or (skipMembers rest)

end

mutual

/-- The value in which a repeated key keeps its last value only. -/
def settle : Json → Json
  | .arr items stop => .arr (settleItems items) stop
  | .obj members stop => .obj (settleMembers members) stop
  | other => other

/-- Items, each settled. -/
def settleItems : List Json → List Json
  | [] => []
  | item :: rest => settle item :: settleItems rest

/-- Members, each settled, without those whose key comes again. -/
def settleMembers : List (String × Json) → List (String × Json)
  | [] => []
  | (key, value) :: rest =>
    let later := settleMembers rest
    if later.any (·.1 == key) then later else (key, settle value) :: later

end

end Json
end Clarion
