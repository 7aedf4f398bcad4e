/-
  DeclGraph — the configuration that a user keeps with a code base.

  It has three fields.  A field that is not set leaves the general configuration
  as it is.  A file that is not well formed, or has other values than the fields
  may have, counts as one that sets no field; but nothing is read on if the file
  holds no text, or a number or a time that there is not.

  * `UserConfig.toText` writes the file, with the fields that have their defaults
    as comments;
  * `UserConfig.ofText` reads it;
  * `UserConfig.sections` are its set fields as sections of the configuration.
-/
import DeclGraph.Config.Validation
import DeclGraph.FileTree
import DeclGraph.Yaml.Writer

namespace DeclGraph

/-- The fields that a user sets. -/
structure UserConfig where
  snapshotName : Option String := none
  logLevel : Option LogLevel := none
  clangArgs : Option (List String) := none
deriving DecidableEq, Inhabited, Repr

namespace UserConfig

/-! ## Values -/

/-- The name of the snapshot, set or not. -/
def snapshotNameOrDefault (u : UserConfig) : String :=
  u.snapshotName.getD (({} : GraphConfig).snapshotName)

/-- The level of the log, set or not. -/
def logLevelOrDefault (u : UserConfig) : LogLevel := u.logLevel.getD (({} : LoggingConfig).level)

/-- The arguments of the parser, set or not. -/
def clangArgsOrDefault (u : UserConfig) : List String := u.clangArgs.getD []

/-- All values as an object. -/
def toJson (u : UserConfig) : Json :=
  .obj [("snapshot_name", .str u.snapshotNameOrDefault),
    ("log_level", .str u.logLevelOrDefault.name), ("clang_args", .ofTexts u.clangArgsOrDefault)]

/-- The names of the fields that are set. -/
def setFields (u : UserConfig) : List String :=
  (u.snapshotName.map fun _ => "snapshot_name").toList ++
    (u.logLevel.map fun _ => "log_level").toList ++ (u.clangArgs.map fun _ => "clang_args").toList

/-- The set fields as sections of the configuration. -/
def sections (u : UserConfig) : List (String × Json) :=
  (u.snapshotName.map fun n => ("graph", Json.obj [("snapshot_name", .str n)])).toList ++
    (u.logLevel.map fun l => ("logging", Json.obj [("level", .str l.name)])).toList ++
    (u.clangArgs.map fun args => ("parsers", Json.obj [("clang_args", .ofTexts args)])).toList

/-! ## Reading -/

open Config in
/-- Reads a field that may be left out. -/
def setField {α : Type} (ms : List (String × Json)) (key : String) (read : Reader α) :
    Except Rejection (Option α) :=
  field ms [] key none fun place j => (read place j).map some

open Config in
/-- Reads the fields. -/
def ofMembers (ms : List (String × Json)) : Except Rejection UserConfig := do
  return {
    snapshotName := ← setField ms "snapshot_name" (scalar readText)
    logLevel := ← setField ms "log_level" (scalar readLevel)
    clangArgs := ← setField ms "clang_args" (list (scalar readText)) }

/-- The fields of a document; what cannot be used sets no field. -/
def ofNode (n : Yaml.Node) : Except Yaml.Flaw UserConfig := do
  match ← n.value with
  | .obj ms => return if n.hasOddKey then {} else (ofMembers ms).toOption.getD {}
  | _ => return {}

/-- Reads the text of a file; what is not well formed sets no field. -/
def ofText (h : Host) (s : String) : Except Fault UserConfig :=
  match Yaml.compose h.configDepth s >>= ofNode with
  | .ok u => .ok u
  | .error .malformed => .ok {}
  | .error .tooDeep => .error .tooDeep
  | .error .badScalar => .error .badScalar

/-- Reads the text of a file that may be missing; a missing file sets no field. -/
def ofText? (h : Host) : Option String → Except Fault UserConfig
  | some s => ofText h s
  | none => .ok {}

/-! ## Writing -/

/-- The line of a field: a comment if the value is the default. -/
def fieldLine (key value default : String) : String :=
  (if value = default then "# " else "") ++ key ++ ": " ++ value

/-- The lines of the file. -/
def lines (u : UserConfig) : List String :=
  ["# symgraph configuration", "", "# Snapshot file written at the repository root",
    fieldLine "snapshot_name" u.snapshotNameOrDefault ({} : GraphConfig).snapshotName, "",
    "# Log level: DEBUG, INFO, WARNING, ERROR, CRITICAL",
    fieldLine "log_level" u.logLevelOrDefault.name ({} : LoggingConfig).level.name, "",
    "# Extra clang arguments for Objective-C sources (e.g. -I include)",
    match u.clangArgsOrDefault with
    | [] => "# clang_args: []"
    | args => Yaml.flowList "clang_args" args,
    ""]

/-- The text of the file. -/
def toText (u : UserConfig) : String := "\n".intercalate u.lines

/-- The file of a code base. -/
def path (root : Path) : Path := root.join (Path.ofText ".symgraph/config.yaml")

/-- Reads the file of a code base. -/
def load (h : Host) (root : Path) (files : FileTree) : Except Fault UserConfig := do
  ofText? h (← files.textAt? (path root))

end UserConfig

end DeclGraph
