import Clarion.Settings

/-! Settings of the log: how much is logged, where to, and in which form. -/
namespace Clarion

/-- Where and how the program logs. -/
structure LogSettings where
  level : String := "warn"
  /-- The log file; without one the log goes to the error output. -/
  file : Option Path := none
  isJson : Bool := false
deriving Repr, DecidableEq

namespace LogSettings

/-- The path with the number of the process before its extension. -/
def uniquePath (path : Path) (processId : String) : Path :=
  match path.stem? with
  | none => path
  | some stem =>
    match path.extension? with
    | none | some "" => path.withFileName (stem ++ "." ++ processId)
    | some extension => path.withFileName (stem ++ "." ++ processId ++ "." ++ extension)

/-- Defaults with what the environment says, for the process of that number. -/
def ofEnvironment (environment : Environment) (processId : String) : LogSettings :=
  let isSet (name : String) : Bool := environment.lookup name == some "true"
  let file := (environment.lookup "CLARION_LOG_FILE").map Path.mk
  { level := (environment.lookup "RUST_LOG").getD "warn"
    file :=
      if isSet "CLARION_LOG_UNIQUE" then file.map (uniquePath · processId) else file
    isJson := isSet "CLARION_LOG_JSON" }

/-- Settings with the choices made for one run. -/
def override (settings : LogSettings) (level : Option String) (file : Option Path)
    (isJson : Bool) : LogSettings :=
  { level := level.getD settings.level
    file := file.or settings.file
    isJson := settings.isJson || isJson }

/-- The JSON form of log settings. -/
def toJson (settings : LogSettings) : Json :=
  .obj [("level", .str settings.level),
    ("filePath", settings.file.elim .null fun path => .str path.text),
    ("json", .bool settings.isJson)]

end LogSettings
end Clarion
