/-! XML as a stream of events. Tags have to be well formed and end tags have to match their start
tags; everything else is left to whoever reads the events. Comments, sections of raw data,
declarations and processing instructions leave no event, though they part the text around them. -/
namespace Clarion.Xml

/-- A blank of the markup. -/
def isSpace (c : Char) : Bool :=
  c == ' ' || c == '\t' || c == '\n' || c == '\r'

/-- Something met in the text, from left to right. Attributes and text are as written. -/
inductive Event where
  | opening (name attributes : List Char)
  | empty (name attributes : List Char)
  | closing
  | text (raw : List Char)
deriving Repr, DecidableEq

/-- The name at the start of a tag, and the attributes after it. -/
def cutName (content : List Char) : List Char × List Char :=
  (content.takeWhile (!isSpace ·), content.dropWhile (!isSpace ·))

/-- The name without what stands before its first colon. -/
def localName (name : List Char) : List Char :=
  match name.dropWhile (· != ':') with
  | [] => name
  | _ :: rest => rest

/-- Text without blanks at its end. -/
def trimEnd (chars : List Char) : List Char :=
  (chars.reverse.dropWhile isSpace).reverse

/-- The characters of a tag up to its `>`, which does not count inside quotes, and those after. -/
def cutTag (quote : Option Char) : List Char → Option (List Char × List Char)
  | [] => none
  | c :: rest =>
    if quote.isNone && c == '>' then some ([], rest)
    else
      let quote :=
        match quote with
        | none => if c == '"' || c == '\'' then some c else none
        | some q => if c == q then none else some q
      (cutTag quote rest).map fun (content, left) => (c :: content, left)

/-- The characters up to the first `>` that `ends` accepts, given what stands before it, last
character first, and the characters after it. -/
def cutAt (ends : List Char → Bool) (before : List Char) : List Char → Option (List Char)
  | [] => none
  | c :: rest => if c == '>' && ends before then some rest else cutAt ends (c :: before) rest

/-- The characters after a comment, from its `!` on. -/
def afterComment (chars : List Char) : Option (List Char) :=
  if ['!', '-', '-'].isPrefixOf chars then
    cutAt (fun before => 5 ≤ before.length && ['-', '-'].isPrefixOf before) [] chars
  else none

/-- The characters after a section of raw data, from its `!` on. -/
def afterRawData (chars : List Char) : Option (List Char) :=
  if ['!', '[', 'C', 'D', 'A', 'T', 'A', '['].isPrefixOf chars then
    cutAt (fun before => [']', ']'].isPrefixOf before) [] chars
  else none

/-- The characters up to the `>` that balances the tags inside, and those after. -/
def cutBalanced (depth : Nat) : List Char → Option (List Char × List Char)
  | [] => none
  | c :: rest =>
    if c == '>' && depth == 0 then some ([], rest)
    else
      let depth := if c == '<' then depth + 1 else if c == '>' then depth - 1 else depth
      (cutBalanced depth rest).map fun (content, left) => (c :: content, left)

/-- The characters after a document type, from its `!` on. It has to have a name. -/
def afterDocumentType (chars : List Char) : Option (List Char) :=
  match cutBalanced 0 chars with
  | none => none
  | some (content, rest) =>
    let word := "!doctype".toList
    let named := !((content.drop word.length).all isSpace)
    if (content.take word.length).map Char.toLower == word && named then some rest else none

/-- The characters after markup that starts with `<!`, from its `!` on. -/
def afterBang (chars : List Char) : Option (List Char) :=
  match chars with
  | _ :: '-' :: _ => afterComment chars
  | _ :: '[' :: _ => afterRawData chars
  | _ :: 'D' :: _ => afterDocumentType chars
  | _ :: 'd' :: _ => afterDocumentType chars
  | _ => none

/-- The characters after a processing instruction, from its `?` on. -/
def afterInstruction (chars : List Char) : Option (List Char) :=
  match cutAt (fun before => before.head? == some '?') [] chars with
  | none => none
  | some rest => if chars.length - rest.length < 3 then none else some rest

/-- What one piece of markup after its `<` leads to: an event or none, the names still open, and
the characters left. Nothing when the markup is faulty. -/
def readMarkup (openNames : List (List Char)) (chars : List Char) :
    Option (List Event × List (List Char) × List Char) :=
  match chars with
  | [] => none
  | '!' :: _ => (afterBang chars).map ([], openNames, ·)
  | '?' :: _ => (afterInstruction chars).map ([], openNames, ·)
  | '/' :: _ =>
    match cutTag none chars, openNames with
    | some (content, rest), name :: outer =>
      let written := content.drop 1
      let closed := if written.all isSpace then written else trimEnd written
      if closed == name then some ([.closing], outer, rest) else none
    | _, _ => none
  | _ =>
    (cutTag none chars).map fun (content, rest) =>
      if content.getLast? == some '/' then
        let (name, attributes) := cutName content.dropLast
        ([.empty name attributes], openNames, rest)
      else
        let (name, attributes) := cutName content
        ([.opening name attributes], name :: openNames, rest)

/-- Events up to the end or to the first faulty markup, and whether there is one; `fuel` bounds the
pieces of markup left. -/
def eventsFrom : Nat → List (List Char) → List Char → List Event × Bool
  | 0, _, _ => ([], false)
  | fuel + 1, openNames, chars =>
    let chars := chars.dropWhile isSpace
    let raw := trimEnd (chars.takeWhile (· != '<'))
    let here := if raw.isEmpty then [] else [Event.text raw]
    match chars.dropWhile (· != '<') with
    | [] => (here, false)
    | _ :: markup =>
      match readMarkup openNames markup with
      | none => (here, true)
      | some (found, openNames, rest) =>
        let (later, faulty) := eventsFrom fuel openNames rest
        (here ++ found ++ later, faulty)

/-- The events of a text, and whether faulty markup ended them. A mark of byte order at the start
does not count. -/
def events (text : String) : List Event × Bool :=
  let chars := text.toList
  let chars := if chars.head? == some (Char.ofNat 0xFEFF) then chars.tail else chars
  eventsFrom (chars.length + 1) [] chars

end Clarion.Xml
