import Clarion.Json.Decode
import Clarion.Path

/-! Settings of the resolver: defaults, then environment variables or a JSON file, then the choices
made for one run. -/
namespace Clarion

/-- Variables of the environment by name. -/
abbrev Environment := List (String × String)

/-- Settings that decide where files are looked for. -/
structure Settings where
  /-- The build configuration whose redirections count. -/
  configuration : String := "Debug"
  /-- The directory that holds the redirection file for all projects. -/
  binDirectory : Option Path := none
  redirectionFile : String := "Clarion110.red"
  /-- Values of `%name%`, each name once. -/
  macroValues : List (String × String) := []
  /-- Extensions tried, in order, for a name without one. -/
  lookupExtensions : List String := [".clw", ".inc", ".equ", ".eq", ".int"]
deriving Repr, DecidableEq

namespace Settings

/-- Extensions separated by semicolons, commas or blanks, in small letters with their periods. -/
def parseExtensions (text : String) : List String :=
  let parts := (Text.splitWhere (fun c => c == ';' || c == ',' || c == ' ') text).map Text.trim
  (parts.filter (!·.isEmpty)).map fun part =>
    let extension := Text.foldLower part
    if extension.toList.head? == some '.' then extension else "." ++ extension

/-- Defaults with what the environment says. -/
def ofEnvironment (environment : Environment) : Settings :=
  let defaults : Settings := {}
  { defaults with
    configuration := (environment.lookup "CLARION_CONFIGURATION").getD defaults.configuration
    binDirectory := (environment.lookup "CLARION_BIN").map Path.mk
    redirectionFile := (environment.lookup "CLARION_RED_FILE").getD defaults.redirectionFile
    lookupExtensions :=
      ((environment.lookup "CLARION_LOOKUP_EXTENSIONS").map parseExtensions).getD
        defaults.lookupExtensions }

/-- Settings with the choices made for one run. -/
def override (settings : Settings) (configuration : Option String) (binDirectory : Option Path)
    (redirectionFile : Option String) : Settings :=
  { settings with
    configuration := configuration.getD settings.configuration
    binDirectory := binDirectory.or settings.binDirectory
    redirectionFile := redirectionFile.getD settings.redirectionFile }

/-- A table with a value set; a name that is there keeps its place. -/
def putValue (table : List (String × String)) (name value : String) : List (String × String) :=
  if table.any (·.1 == name) then
    table.map fun entry => if entry.1 == name then (name, value) else entry
  else table ++ [(name, value)]

/-- Settings with the value of one name set. -/
def withMacro (settings : Settings) (name value : String) : Settings :=
  { settings with macroValues := putValue settings.macroValues name value }

/-- The value of a name, up to letter case. -/
def macroValue? (settings : Settings) (name : String) : Option String :=
  (settings.macroValues.find? fun entry => Text.sameFold entry.1 name).map Prod.snd

/-- The path of the redirection file for all projects. -/
def globalRedirection? (settings : Settings) : Option Path :=
  settings.binDirectory.map (·.join ⟨settings.redirectionFile⟩)

private def decodeTable : Json.Decoder (List (String × String))
  | .obj members stop => do
    let table ← members.foldlM (fun table (name, value) =>
      return putValue table name (← Json.decodeString value)) []
    Json.unlessStopped (stop.map Stop.fault) table
  | other => .error other.misfit

open Json in
/-- The fields of settings, in the order they have by position. -/
def slots : List (Slot Settings) := [
  ⟨"configuration", fun j s => return { s with configuration := ← decodeString j }⟩,
  ⟨"clarionBin", fun j s => do
    let bin ← decodeOption decodeString j
    return { s with binDirectory := bin.map Path.mk }⟩,
  ⟨"redirectionFile", fun j s => return { s with redirectionFile := ← decodeString j }⟩,
  ⟨"macros", fun j s => return { s with macroValues := ← decodeTable j }⟩,
  ⟨"defaultLookupExtensions", fun j s =>
    return { s with lookupExtensions := ← decodeList decodeString j }⟩]

/-- Decodes settings; absent fields keep their defaults. -/
def ofJson : Json.Decoder Settings :=
  Json.fillRecord slots {}

/-- The JSON form of settings. -/
def toJson (settings : Settings) : Json :=
  .obj [("configuration", .str settings.configuration),
    ("clarionBin", settings.binDirectory.elim .null fun path => .str path.text),
    ("redirectionFile", .str settings.redirectionFile),
    ("macros", .obj (settings.macroValues.map fun (name, value) => (name, .str value))),
    ("defaultLookupExtensions", .arr (settings.lookupExtensions.map .str))]

end Settings
end Clarion
