/-
  DeclGraph — the configuration.

  The configuration has four sections: logging, parsers, the graph and its
  snapshot, and limits of what is shown.  Every field has a default.

  * `Config` with its sections;
  * `Config.toJson` writes all fields.
-/
import DeclGraph.Json.Basic
import DeclGraph.Path

namespace DeclGraph

/-- How important an event is. -/
inductive LogLevel where
  | debug
  | info
  | warning
  | error
  | critical
deriving DecidableEq, Inhabited, Repr

namespace LogLevel

/-- The name of a level. -/
def name : LogLevel → String
  | debug => "DEBUG"
  | info => "INFO"
  | warning => "WARNING"
  | error => "ERROR"
  | critical => "CRITICAL"

/-- All levels. -/
def all : List LogLevel := [debug, info, warning, error, critical]

/-- The level of a name. -/
def ofName? (s : String) : Option LogLevel := all.find? (·.name == s)

/-- Every level is read back from its name. -/
theorem ofName?_name (l : LogLevel) : ofName? l.name = some l := by cases l <;> decide

end LogLevel

/-- How records are written. -/
inductive LogFormat where
  | json
  | console
deriving DecidableEq, Inhabited, Repr

namespace LogFormat

/-- The name of a format. -/
def name : LogFormat → String
  | json => "json"
  | console => "console"

/-- The format of a name. -/
def ofName? (s : String) : Option LogFormat := [json, console].find? (·.name == s)

end LogFormat

/-- Where records are written to. -/
inductive Destination where
  | stderr
  | stdout
  /-- a file with an absolute path -/
  | file (path : Path)
deriving DecidableEq, Inhabited, Repr

/-- The text of a destination. -/
def Destination.toText : Destination → String
  | stderr => "stderr"
  | stdout => "stdout"
  | file path => path.toText

/-- One output of the log. -/
structure LogOutput where
  format : LogFormat := .console
  destination : Destination := .stderr
  /-- The least level; that of the log if there is none. -/
  level : Option LogLevel := none
deriving DecidableEq, Inhabited, Repr

/-- The section about the log. -/
structure LoggingConfig where
  level : LogLevel := .info
  outputs : List LogOutput := [{}]
deriving DecidableEq, Inhabited, Repr

/-- Directories that are skipped by default: those of dependencies and of builds. -/
def defaultSkipDirs : List String :=
  [".build", ".swiftpm", "Carthage", "DerivedData", "Pods", "build", "node_modules", "vendor"]

/-- The section about parsers and source units. -/
structure ParserConfig where
  /-- The parser of Swift units. -/
  sourceKitten : String := "sourcekitten"
  /-- The parser of Objective-C and C units. -/
  clang : String := "clang"
  /-- Further arguments of the latter. -/
  clangArgs : List String := []
  /-- How many parsers run at a time. -/
  maxConcurrency : Int := 8
  /-- Seconds that a parser may take. -/
  timeout : Binary64 := .ofInt 60
  /-- Whether only directories with a project are scanned. -/
  requireProject : Bool := true
  /-- Names of directories that are skipped. -/
  skipDirs : List String := defaultSkipDirs
deriving DecidableEq, Inhabited, Repr

/-- The section about the graph. -/
structure GraphConfig where
  /-- The path of the snapshot as seen from the root of the code base. -/
  snapshotName : String := "app.json"
  /-- How many units are read at a time. -/
  extractWorkers : Int := 4
deriving DecidableEq, Inhabited, Repr

/-- The section about what is shown. -/
structure Limits where
  searchDefault : Int := 25
  membersShown : Int := 10
  referencesShown : Int := 5
  overviewItems : Int := 10
  largestFiles : Int := 5
deriving DecidableEq, Inhabited, Repr

/-- A configuration. -/
structure Config where
  logging : LoggingConfig := {}
  parsers : ParserConfig := {}
  graph : GraphConfig := {}
  limits : Limits := {}
deriving DecidableEq, Inhabited, Repr

/-! ## As JSON -/

/-- An output as an object. -/
def LogOutput.toJson (o : LogOutput) : Json :=
  .obj [("format", .str o.format.name), ("destination", .str o.destination.toText),
    ("level", .ofText? (o.level.map LogLevel.name))]

/-- A section as an object. -/
def LoggingConfig.toJson (c : LoggingConfig) : Json :=
  .obj [("level", .str c.level.name), ("outputs", .arr (c.outputs.map LogOutput.toJson))]

@[inherit_doc LoggingConfig.toJson]
def ParserConfig.toJson (c : ParserConfig) : Json :=
  .obj [("sourcekitten_path", .str c.sourceKitten), ("clang_path", .str c.clang),
    ("clang_args", .ofTexts c.clangArgs), ("max_concurrency", .int c.maxConcurrency),
    ("timeout_sec", .float c.timeout), ("require_xcode_project", .bool c.requireProject),
    ("skip_dirs", .ofTexts c.skipDirs)]

@[inherit_doc LoggingConfig.toJson]
def GraphConfig.toJson (c : GraphConfig) : Json :=
  .obj [("snapshot_name", .str c.snapshotName), ("extract_workers", .int c.extractWorkers)]

@[inherit_doc LoggingConfig.toJson]
def Limits.toJson (c : Limits) : Json :=
  .obj [("search_default", .int c.searchDefault), ("members_shown", .int c.membersShown),
    ("references_shown", .int c.referencesShown), ("overview_items", .int c.overviewItems),
    ("largest_files", .int c.largestFiles)]

/-- A configuration as an object of sections. -/
def Config.toJson (c : Config) : Json :=
  .obj [("logging", c.logging.toJson), ("parsers", c.parsers.toJson), ("graph", c.graph.toJson),
    ("limits", c.limits.toJson)]

/-- The snapshot of a code base. -/
def Config.snapshotPath (c : Config) (root : Path) : Path :=
  root.join (Path.ofText c.graph.snapshotName)

end DeclGraph
