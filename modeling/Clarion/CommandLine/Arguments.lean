import Clarion.Path

/-! The arguments of the program: options that every command knows, a command, and the options and
words that belong to it. -/
namespace Clarion.CommandLine

/-- In which form an outline is printed. -/
inductive OutlineForm where
  | full
  /-- The form that editors read. -/
  | editor
  /-- A line for each symbol. -/
  | flat
deriving Repr, DecidableEq

/-- What the program is asked to do. -/
inductive Command where
  | outline (tokens : Path) (form : OutlineForm)
  | folding (tokens : Path)
  | searchPaths (solution : Path) (extension : String) (project : Option String)
  | resolve (solution : Path) (file : String) (project : Option String)
  | findClass (solution : Path) (name : String)
  | discover (root : Option Path) (depth : Nat) (includeHidden : Bool)
deriving Repr, DecidableEq

/-- The arguments, read. -/
structure Arguments where
  command : Command
  logLevel : Option String := none
  logFile : Option Path := none
  logJson : Bool := false
  /-- A file with settings. -/
  config : Option Path := none
  configuration : Option String := none
  binDirectory : Option Path := none
  redirectionFile : Option String := none
deriving Repr, DecidableEq

namespace Command

/-- The file of tokens that the command reads. -/
def tokens? : Command → Option Path
  | .outline tokens _ | .folding tokens => some tokens
  | _ => none

/-- The path that the command starts from. -/
def path? : Command → Option Path
  | .outline path _ | .folding path | .searchPaths path _ _ | .resolve path _ _
  | .findClass path _ => some path
  | .discover root _ _ => root

end Command

namespace Arguments

/-- The tokens come from the standard input, which one dash stands for. -/
def readsInput (arguments : Arguments) : Bool :=
  arguments.command.tokens?.any (·.same ⟨"-"⟩)

/-- The paths that the arguments name. -/
def paths (arguments : Arguments) : List Path :=
  [arguments.command.path?, arguments.config, arguments.binDirectory,
    arguments.logFile].filterMap id

end Arguments

/-- Why no command is run. -/
inductive Refusal where
  | usage
  | help
  | version
deriving Repr, DecidableEq

/-- What an option or a word takes. -/
inductive Takes where
  | nothing
  | text
  /-- A path, which may not be empty. -/
  | path
  /-- A number that fits into 64 bits. -/
  | number
deriving Repr, DecidableEq

/-- A number in decimal digits, which may follow a plus sign. -/
def number? (value : String) : Option Nat :=
  let digits := match value.toList with
    | '+' :: rest => rest
    | chars => chars
  if digits.isEmpty || !digits.all Char.isDigit then none
  else
    let number := digits.foldl (fun number c => 10 * number + (c.toNat - '0'.toNat)) 0
    if number < Nat.pow 2 64 then some number else none

/-- The value is one that can be taken. -/
def Takes.accepts : Takes → String → Bool
  | .nothing, _ => false
  | .text, _ => true
  | .path, value => !value.isEmpty
  | .number, value => (number? value).isSome

/-- Options by name. -/
abbrev OptionTable := List (String × Takes)

/-- The words and options read so far; an option that takes nothing stands with an empty text. -/
structure Reading where
  options : List (String × String) := []
  words : List String := []
deriving Repr, DecidableEq

namespace Reading

/-- The option was given. -/
def has (reading : Reading) (name : String) : Bool :=
  (reading.options.lookup name).isSome

/-- The value of an option. -/
def value? (reading : Reading) (name : String) : Option String :=
  reading.options.lookup name

/-- The reading with one more option, which may be given once. -/
def addOption (reading : Reading) (name value : String) : Except Refusal Reading :=
  if reading.has name then .error .usage
  else .ok { reading with options := reading.options ++ [(name, value)] }

/-- The reading with one more word, which has to be one that the command takes. -/
def addWord (reading : Reading) (takes : List Takes) (word : String) : Except Refusal Reading :=
  match takes[reading.words.length]? with
  | none => .error .usage
  | some kind =>
    if kind.accepts word then .ok { reading with words := reading.words ++ [word] }
    else .error .usage

end Reading

/-- How an argument is read. -/
inductive Shape where
  /-- Two dashes alone: only words follow. -/
  | escape
  /-- A name after two dashes, which may carry its value after an equals sign. -/
  | long (name : String) (value : Option String)
  /-- A letter after one dash. -/
  | short (letter : Char)
  | word
deriving Repr, DecidableEq

/-- The shape of an argument. One dash alone is a word. -/
def Shape.of (argument : String) : Shape :=
  match argument.toList with
  | ['-', '-'] => .escape
  | '-' :: '-' :: name =>
    match Text.cutChars '=' name with
    | some (name, value) => .long (String.ofList name) (some (String.ofList value))
    | none => .long (String.ofList name) none
  | '-' :: letter :: _ => .short letter
  | _ => .word

/-- The grammar of the arguments of one level. -/
structure Grammar where
  options : OptionTable
  /-- What the words of a command take; nothing where a word names a command. -/
  words : Option (List Takes)
deriving Repr, DecidableEq

/-- Reads the words after two dashes. -/
def readWords (grammar : Grammar) (reading : Reading) : List String → Except Refusal Reading
  | [] => .ok reading
  | word :: rest => do
    let takes ← grammar.words.elim (.error .usage) .ok
    readWords grammar (← reading.addWord takes word) rest

/-- Reads the arguments of one level from left to right. Where a word names a command, reading ends
there and gives the arguments from that word on. -/
def readLevel (grammar : Grammar) (reading : Reading) :
    List String → Except Refusal (Reading × List String)
  | [] => .ok (reading, [])
  | argument :: rest => do
    match Shape.of argument with
    | .escape => return (← readWords grammar reading rest, [])
    | .short 'h' => throw .help
    | .short 'V' => throw (if grammar.words.isNone then .version else .usage)
    | .short _ => throw .usage
    | .word =>
      match grammar.words with
      | none => return (reading, argument :: rest)
      | some takes => readLevel grammar (← reading.addWord takes argument) rest
    | .long name value =>
      match grammar.options.lookup name, value with
      | none, none =>
        if name = "help" then throw .help
        else if name = "version" ∧ grammar.words.isNone then throw .version
        else throw .usage
      | none, some _ => throw .usage
      | some .nothing, none => readLevel grammar (← reading.addOption name "") rest
      | some .nothing, some _ => throw .usage
      | some takes, some value =>
        if !takes.accepts value then throw .usage
        readLevel grammar (← reading.addOption name value) rest
      | some takes, none =>
        match rest with
        | [] => throw .usage
        | value :: rest =>
          if Shape.of value != .word || !takes.accepts value then throw .usage
          readLevel grammar (← reading.addOption name value) rest

/-- The options that every command knows. -/
def globalOptions : OptionTable := [
  ("log-level", .text), ("log-file", .path), ("log-json", .nothing), ("config", .path),
  ("configuration", .text), ("clarion-bin", .path), ("red-file", .text)]

/-- The options and words of a command, and how the command is made of them. -/
structure CommandGrammar where
  options : OptionTable
  words : List Takes
  make : Reading → Except Refusal Command

private def outlineForm (reading : Reading) : Except Refusal OutlineForm :=
  match reading.has "lsp", reading.has "flat" with
  | true, true => .error .usage
  | true, false => .ok .editor
  | false, true => .ok .flat
  | false, false => .ok .full

/-- The grammar of each command. -/
def commands : List (String × CommandGrammar) := [
  ("outline", {
    options := [("document", .text), ("lsp", .nothing), ("flat", .nothing)]
    words := [.path]
    make := fun reading => do
      let form ← outlineForm reading
      match reading.words with
      | [tokens] => return .outline ⟨tokens⟩ form
      | _ => throw .usage }),
  ("folding", {
    options := []
    words := [.path]
    make := fun reading =>
      match reading.words with
      | [tokens] => .ok (.folding ⟨tokens⟩)
      | _ => .error .usage }),
  ("search-paths", {
    options := [("extension", .text), ("project", .text)]
    words := [.path]
    make := fun reading =>
      match reading.words with
      | [solution] =>
        .ok (.searchPaths ⟨solution⟩ ((reading.value? "extension").getD ".clw")
          (reading.value? "project"))
      | _ => .error .usage }),
  ("resolve", {
    options := [("project", .text)]
    words := [.path, .text]
    make := fun reading =>
      match reading.words with
      | [solution, file] => .ok (.resolve ⟨solution⟩ file (reading.value? "project"))
      | _ => .error .usage }),
  ("find-class", {
    options := []
    words := [.path, .text]
    make := fun reading =>
      match reading.words with
      | [solution, name] => .ok (.findClass ⟨solution⟩ name)
      | _ => .error .usage }),
  ("discover", {
    options := [("depth", .number), ("include-hidden", .nothing)]
    words := [.path]
    make := fun reading =>
      let depth := ((reading.value? "depth").bind number?).getD 3
      .ok (.discover (reading.words.head?.map Path.mk) depth (reading.has "include-hidden")) })]

/-- What the words after `help` are answered with: help for one command, or for the program. Nothing
else may stand there, not even an option. -/
def helpFor : List String → Refusal
  | [] => .help
  | [name] => if name = "help" ∨ (commands.lookup name).isSome then .help else .usage
  | _ => .usage

/-- Reads the arguments. An option for every command may stand before or after the command; after
it counts more. -/
def parse (arguments : List String) : Except Refusal Arguments := do
  let (before, rest) ← readLevel ⟨globalOptions, none⟩ {} arguments
  match rest with
  | [] => throw .usage
  | name :: rest =>
    if name = "help" then throw (helpFor rest)
    match commands.lookup name with
    | none => throw .usage
    | some grammar =>
      let (after, _) ← readLevel ⟨grammar.options ++ globalOptions, some grammar.words⟩ {} rest
      let command ← grammar.make after
      let value? (name : String) : Option String := (after.value? name).or (before.value? name)
      return {
        command
        logLevel := value? "log-level"
        logFile := (value? "log-file").map Path.mk
        logJson := (value? "log-json").isSome
        config := (value? "config").map Path.mk
        configuration := value? "configuration"
        binDirectory := (value? "clarion-bin").map Path.mk
        redirectionFile := value? "red-file" }

end Clarion.CommandLine
