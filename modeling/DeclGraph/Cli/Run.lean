/-
  DeclGraph — running commands.

  A command writes lines to two streams, the answer to one and notes to the
  other.  It ends well, or with a message, or because something broke off.  What
  it wrote before stays.

  * `Terminal` is what a command meets;
  * `Command.run` runs a command; `runArgs` reads the command line first.
-/
import DeclGraph.Cli.Command
import DeclGraph.Cli.Report
import DeclGraph.Config.Layers
import DeclGraph.Display.Markup
import DeclGraph.Server.Basic
import DeclGraph.Session

namespace DeclGraph.Cli

/-- What a command meets. -/
structure Terminal extends Surroundings where
  environment : List (String × String) := []
  /-- The global configuration file. -/
  globalFile : Path

/-- What breaks a command off. -/
inductive Crash where
  | problem (problem : Problem)
  | fault (fault : Fault)
  /-- marked-up text closes a tag that is not open -/
  | markup
  /-- an environment variable is no JSON text -/
  | variable_ (field : String)
  /-- the directory of a file cannot be made -/
  | noDirectory
deriving DecidableEq, Repr

/-- How a command ends other than well. -/
inductive Ending where
  /-- the arguments are wrong -/
  | usage
  | failed (message : String)
  | crashed (crash : Crash)
deriving DecidableEq, Repr

/-- What a command leaves behind. -/
structure Transcript where
  /-- The lines of the answer. -/
  output : List String := []
  /-- The lines of the notes. -/
  notes : List String := []
  files : FileTree
deriving Inhabited

/-- A part of a command. -/
abbrev Run := ExceptT Ending (StateM Transcript)

/-! ## Writing -/

/-- Writes lines of the answer. -/
def say (lines : List String) : Run Unit := modify fun t => { t with output := t.output ++ lines }

/-- Writes lines of notes. -/
def note (lines : List String) : Run Unit := modify fun t => { t with notes := t.notes ++ lines }

/-- Breaks off. -/
def crash {α : Type} (c : Crash) : Run α := throw (.crashed c)

/-- A result, or a crash. -/
def orCrash {α : Type} : Except Fault α → Run α
  | .ok x => pure x
  | .error f => crash (.fault f)

/-- Ends with the message of a problem, or breaks off for a fault. -/
def fail {α : Type} (hint : String := "") : Failure → Run α
  | .problem p => throw (.failed (p.message ++ hint))
  | .fault f => crash (.fault f)

/-- A result, or a message. -/
def orFail {α : Type} (hint : String := "") : Except Failure α → Run α
  | .ok x => pure x
  | .error failure => fail hint failure

/-- A text as it is shown. -/
def shownText (s : String) : Run String :=
  match Display.plain? s with
  | some s => pure s
  | none => crash .markup

/-- A table with its cells as they are shown. -/
def shownGrid (g : Grid) : Run Grid := do
  return { g with rows := ← g.rows.mapM fun row => row.mapM shownText }

/-- Writes a value of the answer. -/
def sayJson (h : Host) (j : Json) : Run Unit := do
  say [← orCrash (j.write h.writeDepth .indented)]

/-! ## Configuration -/

namespace Terminal

/-- The sources of the configuration. -/
def sources (t : Terminal) : Config.Sources where
  host := t.host
  files := t.files
  workDir := t.workDir
  globalFile := t.globalFile
  environment := t.environment

/-- The configuration of a directory; whatever is wrong with it breaks the command
    off. -/
def configAt (t : Terminal) (root : Path) : Run Config :=
  match Config.resolve t.sources root with
  | .ok c => pure c
  | .error (.problem p) => crash (.problem p)
  | .error (.variable_ field) => crash (.variable_ field)
  | .error (.fault f) => crash (.fault f)

/-- The configuration of the directory in which a command runs. -/
def config (t : Terminal) : Run Config := t.configAt t.workDir

/-- The configuration of a code base; a problem is a message. -/
def configOf (t : Terminal) (root : Path) : Run Config :=
  match Config.resolve t.sources root with
  | .ok c => pure c
  | .error (.problem p) => throw (.failed p.message)
  | .error (.variable_ field) => crash (.variable_ field)
  | .error (.fault f) => crash (.fault f)

/-- What the message about a missing snapshot says if none was named. -/
def snapshotHint : String := "\nRun 'symgraph build PATH' first, or pass --snapshot."

/-- The graph of a snapshot, by default that of the directory in which a command
    runs. -/
def graph (t : Terminal) (snapshot : Option Path) : Run Graph :=
  match snapshot with
  | some path => orFail "" (loadSnapshot t.host path t.files t.workDir)
  | none => do
    let c ← t.config
    orFail snapshotHint (loadSnapshot t.host (c.snapshotPath t.workDir) t.files t.workDir)

end Terminal

/-! ## Questions -/

/-- Explains a name. -/
def runExplain (t : Terminal) (name : String) (snapshot : Option Path) (asJson : Bool) :
    Run Unit := do
  let g ← t.graph snapshot
  let limits := (← t.config).limits
  match ← orCrash (g.explain name), asJson with
  | none, true => sayJson t.host (.obj [("found", .bool false), ("symbol", .str name)])
  | none, false => throw (.failed ("Symbol '" ++ name ++ "' not found"))
  | some e, true => sayJson t.host (.obj (("found", .bool true) :: e.toMembers))
  | some e, false => say (← orCrash (explanationLines limits e))

/-- The name of a search through the usual kinds. -/
def kindName (kind : Option SymbolKind) : String := (kind.map SymbolKind.name).getD ToolCall.anyKind

/-- Searches for a text. -/
def runSearch (t : Terminal) (text : String) (kind : Option SymbolKind) (limit : Option Int)
    (snapshot : Option Path) (asJson : Bool) : Run Unit := do
  let g ← t.graph snapshot
  let limit ← match limit with
    | some n => pure n
    | none => do pure (← t.config).limits.searchDefault
  let hits ← orCrash (g.search text (.str (kindName kind)) (some limit))
  if asJson then
    sayJson t.host (.obj [("query", .str text), ("kind", .str (kindName kind)),
      ("results", .arr (hits.map SearchHit.toJson))])
  else if hits = [] then say ["No matches for '" ++ text ++ "'"]
  else
    let grid ← shownGrid (← orCrash (hitGrid hits))
    let title ← shownText (Wording.counted hits.length "match" (some "matches") ++ " for '" ++
      text ++ "'")
    say (grid.boxed title)

/-- Counts symbols. -/
def runStats (t : Terminal) (snapshot : Option Path) (asJson : Bool) : Run Unit := do
  let g ← t.graph snapshot
  let stats := g.stats (some (← t.config).limits.largestFiles)
  if asJson then sayJson t.host stats.toJson
  else do
    say (totalsGrid stats).bare
    if stats.largest != [] then say ((← shownGrid (largestGrid stats)).boxed "Largest units")

/-- Lists the symbols of one kind in a unit. -/
def saySection (limit : Int) (kind : SymbolKind) (symbols : List Symbol) : Run Unit := do
  say [heading (capitalized kind.bucket) symbols.length]
  for s in upTo limit symbols do
    say [← orCrash (symbolLine s)]
  say (moreLines limit symbols.length)

/-- Lists the symbols of a unit. -/
def runOverview (t : Terminal) (fragment : String) (snapshot : Option Path) (asJson : Bool) :
    Run Unit := do
  let g ← t.graph snapshot
  let o := g.overview fragment
  if asJson then sayJson t.host o.toJson
  else match o.hits with
    | [] => throw (.failed ("No unit matches '" ++ fragment ++ "'"))
    | [unit] => do
      let limit := (← t.config).limits.overviewItems
      say [unit]
      for (kind, symbols) in o.filled do
        saySection limit kind symbols
    | hits =>
      say ((Wording.counted hits.length "unit" ++ " match '" ++ fragment ++ "':") ::
        hits.map fun unit => "  " ++ unit)

/-! ## Scans -/

/-- Writes the snapshot of a scan. -/
def writeSnapshot (t : Terminal) (found : ScanResult) (path : Path) : Run Unit := do
  match trySaveSnapshot t.host found.graph path (← get).files t.workDir with
  | .ok files => modify fun t => { t with files }
  | .error unsaved =>
    modify fun t => { t with files := unsaved.files }
    fail "" unsaved.failure

/-- Writes a configuration file unless there is one. -/
def writeConfigFile (root : Path) : Run Unit := do
  let path := UserConfig.path root
  let files := (← get).files
  if (files.reach? (FileTree.place path)).isNone then
    match files.write? (Utf8.encode ({} : UserConfig).toText) (FileTree.place path) with
    | none => crash .noDirectory
    | some files =>
      modify fun t => { t with files }
      note ["  " ++ (← shownText ("Wrote " ++ path.toText))]

/-- Tells about a scan. -/
def noteScan (found : ScanResult) (snapshot : Path) : Run Unit := do
  note (← shownGrid (scanGrid found snapshot)).bare
  if found.stats.errors != 0 then
    note ["! " ++ (← shownText (Wording.counted found.stats.errors "unit" ++ " failed: " ++
      Wording.nameList found.stats.failed 3))]
  note ["✓ Built in " ++ (← orCrash found.duration.toText?)]

/-- Scans a code base.  A problem of the scan breaks the command off. -/
def runBuild (t : Terminal) (path : Path) (output : Option Path) (writeConfig asJson : Bool) :
    Run Unit := do
  let root := t.workDir.resolve path
  let c ← t.configOf root
  note [(← shownText ("Scanning " ++ root.name ++ "..."))]
  let found ← match scan c t.toSurroundings root with
    | .ok found => pure found
    | .error (.problem p) => crash (.problem p)
    | .error (.fault f) => crash (.fault f)
  let snapshot := output.getD (c.snapshotPath root)
  writeSnapshot t found snapshot
  if writeConfig then writeConfigFile root
  if asJson then sayJson t.host (scanReport found snapshot) else noteScan found snapshot

/-- Starts the server. -/
def runServe (t : Terminal) (path : Option Path) : Run Server := do
  let root := path.map t.workDir.resolve
  let c ← t.configAt (root.getD t.workDir)
  let (s, started) := Server.start t.host c root t.files
  modify fun t => { t with files := s.files }
  orCrash started
  return s

/-! ## Commands -/

/-- The lines of help. -/
def helpLines : List String :=
  ["Usage: symgraph [OPTIONS] COMMAND [ARGS]...", "",
    "  Symbol graphs for Swift and Objective-C projects.", "",
    "Commands:",
    "  build [PATH]       Scan a project and write its symbol graph snapshot.",
    "  explain NAME       Explain a symbol: definition, supertypes, members and usages.",
    "  overview FRAGMENT  List the declarations of the unit matching FRAGMENT.",
    "  search QUERY       Search symbols by case-insensitive name substring.",
    "  serve [PATH]       Run the server on stdio.",
    "  stats              Show symbol totals and the largest units."]

/-- A command as a run. -/
def Command.toRun (t : Terminal) : Command → Run Unit
  | version => say ["symgraph, version 0.1.0"]
  | help => say helpLines
  | build path output writeConfig asJson => runBuild t path output writeConfig asJson
  | explain name snapshot asJson => runExplain t name snapshot asJson
  | search text kind limit snapshot asJson => runSearch t text kind limit snapshot asJson
  | stats snapshot asJson => runStats t snapshot asJson
  | overview fragment snapshot asJson => runOverview t fragment snapshot asJson
  | serve path => discard (runServe t path)

/-- Runs a command. -/
def Command.run (t : Terminal) (c : Command) : Except Ending Unit × Transcript :=
  (c.toRun t).run { files := t.files }

/-- Runs the command line. -/
def runArgs (t : Terminal) (args : List String) : Except Ending Unit × Transcript :=
  match Command.ofArgs? { files := t.files, workDir := t.workDir } args with
  | some c => c.run t
  | none => (.error .usage, { files := t.files })

/-- The exit status of a command. -/
def exitCode : Except Ending Unit → Int
  | .ok _ => 0
  | .error .usage => 2
  | .error _ => 1

end DeclGraph.Cli
