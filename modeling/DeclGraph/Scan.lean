/-
  DeclGraph — scanning a code base.

  A scan finds the project and the source units below a directory, parses the
  units and builds their graph.  Every unit that is found is either in the graph
  or among the failed ones.

  * `Surroundings` is what a scan depends on outside of the configuration;
  * `scan` does it.
-/
import DeclGraph.Duration
import DeclGraph.Graph.Build
import DeclGraph.Parsing

namespace DeclGraph

/-- What a scan meets: files, parsers, and the time that it takes. -/
structure Surroundings where
  host : Host := {}
  files : FileTree := .empty
  /-- The directory that relative paths start from. -/
  workDir : Path := .top
  /-- Whether an executable can be found. -/
  installed : String → Bool := fun _ => true
  /-- What the parser of a unit does. -/
  outcome : SourceUnit → Outcome := fun _ => .hanging
  elapsed : Duration := .whole 0
  /-- The time at which a graph is built. -/
  now : String := ""
deriving Inhabited

/-- What a scan finds. -/
structure ScanResult where
  root : Path
  project : Option Project
  graph : Graph
  stats : BuildStats
  duration : Duration
deriving Inhabited

/-- The graph of the units of a parse run. -/
def ParseRun.build (r : ParseRun) (repoPath generatedAt : Json) : Graph × BuildStats :=
  DeclGraph.build (r.rawUnits.map fun (id, dialect, dump) =>
    { id, dialect := .str dialect.name, dump }) repoPath generatedAt

/-- Scans the entries of the directory `root`. -/
def scanEntries (c : Config) (s : Surroundings) (root : Path)
    (entries : List (String × FileTree)) : Except Failure ScanResult := do
  let project := detectProject root entries
  if project.isNone && c.parsers.requireProject then throw (.problem (.noProject root.toText))
  let units := findUnits root entries [.swift, .objc] c.parsers.skipDirs
  if units.isEmpty then throw (.problem (.noSources root.toText))
  let run ← parseAll s.host c.parsers s.installed s.outcome units
  let (graph, stats) := run.build (.str root.toText) (.str s.now)
  return {
    root, project, graph, duration := s.elapsed
    stats := {
      total := units.length, processed := stats.processed
      errors := stats.errors + run.failures.size
      failed := run.failures.keys ++ stats.failed } }

/-- Scans the directory at a path. -/
def scan (c : Config) (s : Surroundings) (path : Path) : Except Failure ScanResult :=
  match path.expand s.host with
  | .error f => .error (.fault f)
  | .ok target =>
    let root := s.workDir.resolve target
    if target.hasNull then .error (.fault .nullInPath)
    else if s.files.refusesPath .top root then .error (.fault .longPath)
    else match s.files.entriesAt? root with
      | none => .error (.problem (.noProject root.toText))
      | some entries => scanEntries c s root entries

end DeclGraph
