/-
  DeclGraph — checking a configuration.

  A configuration is read field by field in a fixed order, and the first field
  that is refused is reported.  Missing fields have their defaults.  Fields that
  no section knows are ignored, but there are no other sections.

  * `Config.ofSections` reads all sections, and `Config.ofMembers` refuses others;
  * `Rejection` is the place, the value and the reason of a refusal.
-/
import DeclGraph.Config.Conversion
import DeclGraph.Problem

namespace DeclGraph

namespace Config

/-- A value that is refused. -/
structure Rejection where
  /-- The names from the section to the value. -/
  place : List String
  value : Json
  reason : Reason
deriving DecidableEq, Repr

/-- A refused value as a problem. -/
def Rejection.problem (r : Rejection) : Problem :=
  .configInvalid (".".intercalate r.place) r.value r.reason.message

/-- Reads a value at a place. -/
abbrev Reader (α : Type) := List String → Json → Except Rejection α

/-- A conversion as a reader. -/
def scalar {α : Type} (convert : Json → Except Reason α) : Reader α := fun place j =>
  (convert j).mapError fun reason => ⟨place, j, reason⟩

/-- Reads items one after the other, numbering their places. -/
def readItems {α : Type} (read : Reader α) (place : List String) :
    Nat → List Json → Except Rejection (List α)
  | _, [] => .ok []
  | i, j :: js => do
    let x ← read (place ++ [toString i]) j
    return x :: (← readItems read place (i + 1) js)

/-- Reads a list. -/
def list {α : Type} (read : Reader α) : Reader (List α) := fun place j =>
  match j with
  | .arr items => readItems read place 0 items
  | _ => .error ⟨place, j, .notList⟩

/-- Reads the members of a section of the given type. -/
def section_ {α : Type} (type : String)
    (read : List String → List (String × Json) → Except Rejection α) : Reader α := fun place j =>
  match j with
  | .obj ms => read place ms
  | _ => .error ⟨place, j, .notSection type⟩

/-- Reads a field, or takes its default. -/
def field {α : Type} (ms : List (String × Json)) (place : List String) (key : String)
    (default : α) (read : Reader α) : Except Rejection α :=
  match Json.member? key ms with
  | some j => read (place ++ [key]) j
  | none => .ok default

/-! ## Sections -/

/-- Reads an output of the log. -/
def readOutput (h : Host) : Reader LogOutput := section_ "LogOutputConfig" fun place ms => do
  let d : LogOutput := {}
  return {
    format := ← field ms place "format" d.format (scalar readFormat)
    destination := ← field ms place "destination" d.destination (scalar (readDestination h))
    level := ← field ms place "level" d.level (scalar readLevel?) }

/-- Reads the section about the log. -/
def readLogging (h : Host) : Reader LoggingConfig := section_ "LoggingConfig" fun place ms => do
  let d : LoggingConfig := {}
  return {
    level := ← field ms place "level" d.level (scalar readLevel)
    outputs := ← field ms place "outputs" d.outputs (list (readOutput h)) }

/-- Reads the section about parsers. -/
def readParsers : Reader ParserConfig := section_ "ParsersConfig" fun place ms => do
  let d : ParserConfig := {}
  return {
    sourceKitten := ← field ms place "sourcekitten_path" d.sourceKitten (scalar readText)
    clang := ← field ms place "clang_path" d.clang (scalar readText)
    clangArgs := ← field ms place "clang_args" d.clangArgs (list (scalar readText))
    maxConcurrency := ← field ms place "max_concurrency" d.maxConcurrency
      (scalar (readCount "max_concurrency"))
    timeout := ← field ms place "timeout_sec" d.timeout (scalar readNumber)
    requireProject := ← field ms place "require_xcode_project" d.requireProject (scalar readBool)
    skipDirs := ← field ms place "skip_dirs" d.skipDirs (list (scalar readText)) }

/-- Reads the section about the graph. -/
def readGraph : Reader GraphConfig := section_ "GraphConfig" fun place ms => do
  let d : GraphConfig := {}
  return {
    snapshotName := ← field ms place "snapshot_name" d.snapshotName (scalar readText)
    extractWorkers := ← field ms place "extract_workers" d.extractWorkers
      (scalar (readCount "extract_workers")) }

/-- Reads the section about limits. -/
def readLimits : Reader Limits := section_ "LimitsConfig" fun place ms => do
  let d : Limits := {}
  return {
    searchDefault := ← field ms place "search_default" d.searchDefault (scalar readInt)
    membersShown := ← field ms place "members_shown" d.membersShown (scalar readInt)
    referencesShown := ← field ms place "references_shown" d.referencesShown (scalar readInt)
    overviewItems := ← field ms place "overview_items" d.overviewItems (scalar readInt)
    largestFiles := ← field ms place "largest_files" d.largestFiles (scalar readInt) }

/-- The names of the sections. -/
def sectionNames : List String := ["logging", "parsers", "graph", "limits"]

/-- Reads all sections. -/
def ofSections (h : Host) (ms : List (String × Json)) : Except Rejection Config := do
  return {
    logging := ← field ms [] "logging" {} (readLogging h)
    parsers := ← field ms [] "parsers" {} readParsers
    graph := ← field ms [] "graph" {} readGraph
    limits := ← field ms [] "limits" {} readLimits }

/-- Reads a configuration, which has no other sections. -/
def ofMembers (h : Host) (ms : List (String × Json)) : Except Rejection Config := do
  let config ← ofSections h ms
  match ms.find? fun m => !sectionNames.contains m.1 with
  | some (key, value) => throw ⟨[key], value, .unknownSection⟩
  | none => return config

end Config

end DeclGraph
