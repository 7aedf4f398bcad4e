/-
  DeclGraph — problems reported to the user.

  A problem is a failure of an operation on a repository, a snapshot, a parser
  or a configuration.  It has a number, a name and a text, and tells whether
  trying again may help.

  * `Problem.message` and `Problem.details` say what happened;
  * `Problem.remedy` says what to do about it;
  * `Problem.toJson` is the report of a problem;
  * `Failure` is a problem, or a fault that is not reported as one.
-/
import DeclGraph.Fault
import DeclGraph.Json.Literal
import DeclGraph.Text.Basic

namespace DeclGraph

/-- A failure reported to the user. -/
inductive Problem where
  /-- a configuration file cannot be read; the reason is not known for text that
      is not well formed -/
  | configUnreadable (path : String) (reason : Option String)
  /-- a field of the configuration has a value that is not allowed -/
  | configInvalid (field : String) (value : Json) (reason : String)
  /-- a configuration file asked for does not exist -/
  | configMissing (path : String)
  /-- no graph has been published -/
  | notLoaded
  /-- a snapshot file does not exist -/
  | snapshotMissing (path : String)
  /-- a snapshot file does not hold a snapshot -/
  | snapshotInvalid (path reason : String)
  /-- a snapshot cannot be written -/
  | snapshotUnwritable (path reason : String)
  /-- a parser is not installed -/
  | parserMissing (executable hint : String)
  /-- a parser failed on a unit -/
  | parseFailed (unit reason : String)
  /-- a directory holds no project -/
  | noProject (path : String)
  /-- a directory holds no source units -/
  | noSources (path : String)
  /-- something unforeseen happened -/
  | unexpected (reason : String) (details : List (String × Json))
  /-- an operation took longer than the given number of seconds -/
  | timeout (operation : String) (seconds : Json)
deriving DecidableEq, Repr

/-- Why an operation fails: with a problem, or with a fault that nothing on the
    way turns into one. -/
inductive Failure where
  | problem (problem : Problem)
  | fault (fault : Fault)
deriving DecidableEq, Repr

namespace Problem

/-! ## What happened -/

/-- The name of a problem. -/
def name : Problem → String
  | configUnreadable .. => "CONFIG_PARSE_ERROR"
  | configInvalid .. => "CONFIG_INVALID_VALUE"
  | configMissing .. => "CONFIG_FILE_NOT_FOUND"
  | notLoaded => "GRAPH_NOT_LOADED"
  | snapshotMissing .. => "SNAPSHOT_NOT_FOUND"
  | snapshotInvalid .. => "SNAPSHOT_INVALID"
  | snapshotUnwritable .. => "SNAPSHOT_WRITE_FAILED"
  | parserMissing .. => "PARSER_NOT_FOUND"
  | parseFailed .. => "PARSE_FAILED"
  | noProject .. => "PROJECT_NOT_FOUND"
  | noSources .. => "NO_SOURCE_UNITS"
  | unexpected .. => "INTERNAL_ERROR"
  | timeout .. => "INTERNAL_TIMEOUT"

/-- The number of a problem: two thousands for the configuration, three for
    graphs, four for parsers, nine for the rest. -/
def code : Problem → Int
  | configUnreadable .. => 2001
  | configInvalid .. => 2002
  | configMissing .. => 2004
  | notLoaded => 3001
  | snapshotMissing .. => 3002
  | snapshotInvalid .. => 3003
  | snapshotUnwritable .. => 3004
  | parserMissing .. => 4001
  | parseFailed .. => 4002
  | noProject .. => 4003
  | noSources .. => 4004
  | unexpected .. => 9001
  | timeout .. => 9002

/-- The text of a problem. -/
def message : Problem → String
  | configUnreadable path none => "Failed to parse config at " ++ path
  | configUnreadable path (some reason) => "Failed to parse config at " ++ path ++ ": " ++ reason
  | configInvalid field _ reason => "Invalid value for '" ++ field ++ "': " ++ reason
  | configMissing path => "Config file not found: " ++ path
  | notLoaded => "No symbol graph loaded. Build a repository or load a snapshot first."
  | snapshotMissing path => "Snapshot not found: " ++ path
  | snapshotInvalid path reason => "Malformed snapshot at " ++ path ++ ": " ++ reason
  | snapshotUnwritable path reason => "Failed to write snapshot to " ++ path ++ ": " ++ reason
  | parserMissing executable hint =>
    "Parser executable not found: " ++ executable ++ (if hint = "" then "" else ". " ++ hint)
  | parseFailed unit reason => "Failed to parse " ++ unit ++ ": " ++ reason
  | noProject path => "No .xcworkspace, .xcodeproj or Package.swift found in " ++ path
  | noSources path => "No Swift or Objective-C sources found in " ++ path
  | unexpected reason _ => "Internal error: " ++ reason
  | timeout operation seconds => operation ++ " timed out after " ++ seconds.plain ++ "s"

/-- Whether trying again may help. -/
def retryable : Problem → Bool
  | notLoaded | snapshotUnwritable .. | timeout .. => true
  | _ => false

/-- The parts of a problem. -/
def details : Problem → List (String × Json)
  | configUnreadable path none => [("path", .str path)]
  | configUnreadable path (some reason) => [("path", .str path), ("reason", .str reason)]
  | configInvalid field value reason =>
    [("field", .str field), ("value", .str value.plain), ("reason", .str reason)]
  | configMissing path | snapshotMissing path | noProject path | noSources path =>
    [("path", .str path)]
  | notLoaded => []
  | snapshotInvalid path reason | snapshotUnwritable path reason =>
    [("path", .str path), ("reason", .str reason)]
  | parserMissing executable _ => [("executable", .str executable)]
  | parseFailed unit reason => [("unit", .str unit), ("reason", .str reason)]
  | unexpected _ details => details
  | timeout operation seconds => [("operation", .str operation), ("seconds", seconds)]

/-! ## Reports -/

/-- What to do about a problem; empty if nothing is known to help. -/
def remedy : Problem → String
  | notLoaded => "Call init_repo with a project path or load_graph with a snapshot."
  | snapshotMissing _ => "Check the snapshot path, or call init_repo to create one."
  | snapshotInvalid .. => "Rebuild the snapshot with init_repo."
  | snapshotUnwritable .. => "Check write permissions on the repository root."
  | parserMissing .. => "Install the parser or set its path in .symgraph/config.yaml."
  | noProject _ => "Point at the folder containing the .xcodeproj or .xcworkspace."
  | noSources _ => "Check parsers.skip_dirs; vendored folders are skipped by default."
  | timeout .. => "Raise parsers.timeout_sec or retry."
  | _ => ""

/-- The report of a problem. -/
def toJson (p : Problem) : Json :=
  .obj [("code", .int p.code), ("error", .str p.name), ("message", .str p.message),
    ("retryable", .bool p.retryable), ("details", .obj p.details)]

/-- A problem on one line. -/
def toText (p : Problem) : String :=
  "[" ++ toString p.code ++ "] " ++ p.name ++ ": " ++ p.message

/-- What a tool answers to a problem. -/
def toolResult (p : Problem) : Json :=
  .obj [("error", .str p.message), ("code", .str p.name), ("error_code", .int p.code),
    ("retryable", .bool p.retryable), ("remediation", .str p.remedy),
    ("details", .obj p.details), ("summary", .str ("error: " ++ Text.asciiLower p.name))]

end Problem

end DeclGraph
