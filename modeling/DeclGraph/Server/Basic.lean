/-
  DeclGraph — the server.

  The server holds a session and answers calls of tools one after the other.  A
  problem is a result like any other: it says what to do about it.  A fault is
  none: the tool breaks down.

  * `Server.start` is the server of a code base, with the snapshot that is found
    there;
  * `Server.call` answers a call; a call that fails for a problem leaves the
    published graph as it was.
-/
import DeclGraph.Server.Result
import DeclGraph.Session

namespace DeclGraph

/-- A server. -/
structure Server where
  config : Config := {}
  session : Session := {}
  files : FileTree := .empty
  /-- The code base that was scanned or loaded last. -/
  root : Option Path := none
deriving Inhabited

namespace Server

/-! ## Questions -/

/-- The result of a question about the published graph. -/
def asked (s : Server) (result : Graph → Except Fault Json) : Except Fault Json :=
  match s.session.current with
  | .ok g => result g
  | .error p => .ok p.toolResult

/-- Searches for one hit more than is shown. -/
def searched (limits : Limits) (text : String) (kind : Option SymbolKind) (limit : Option Int)
    (g : Graph) : Except Fault Json := do
  let shown := searchLimit limits limit
  let hits ← g.search text (.ofText? (kind.map SymbolKind.name)) (some (shown + 1))
  return searchResult shown text kind hits

/-! ## Graphs -/

/-- What a tool answers to a failure. -/
def failed : Failure → Except Fault Json
  | .problem p => .ok p.toolResult
  | .fault f => .error f

/-- Scans a code base, publishes its graph and writes the snapshot.  The graph
    stays published if the snapshot cannot be written. -/
def initRepo (s : Server) (around : Surroundings) (path : Path) : Server × Except Fault Json :=
  match path.expand around.host with
  | .error f => (s, .error f)
  | .ok path => match scan s.config { around with files := s.files } path with
    | .error failure => (s, failed failure)
    | .ok found =>
      let session := s.session.publish found.graph
      let target := s.config.snapshotPath found.root
      let s := { s with session, root := some found.root }
      match session.trySave around.host target s.files with
      | .ok files => ({ s with files }, scanResult found (.ok target))
      | .error ⟨.problem p, files⟩ => ({ s with files }, scanResult found (.error p))
      | .error ⟨.fault f, files⟩ => ({ s with files }, .error f)

/-- The root of the code base that a graph says it is of. -/
def rootOf (g : Graph) : Except Fault (Option Path) :=
  if g.repoPath.truthy then
    match g.repoPath with
    | .str s => .ok (some (Path.ofText s))
    | _ => .error .wrongType
  else .ok none

/-- Publishes the graph of a snapshot at a path. -/
def loadGraph (s : Server) (around : Surroundings) (path : Path) : Server × Except Fault Json :=
  match path.expand around.host with
  | .error f => (s, .error f)
  | .ok path => match loadSnapshot around.host path s.files around.workDir with
    | .error failure => (s, failed failure)
    | .ok g =>
      let s := { s with session := s.session.publish g }
      match rootOf g with
      | .ok none => (s, .ok (loadResult path g))
      | .ok (some root) => ({ s with root := some root }, .ok (loadResult path g))
      | .error f => (s, .error f)

/-! ## Calls -/

/-- What a tool does with its arguments. -/
def runTool (s : Server) (around : Surroundings) : ToolCall → Server × Except Fault Json
  | .initRepo path => s.initRepo around (Path.ofText path)
  | .loadGraph path => s.loadGraph around (Path.ofText path)
  | .explainSymbol name =>
    (s, s.asked fun g => (g.explain name).map (explanationResult s.config.limits name))
  | .searchSymbols text kind limit => (s, s.asked (searched s.config.limits text kind limit))
  | .codebaseStats =>
    (s, s.asked fun g => .ok (statsResult (g.stats (some s.config.limits.largestFiles))))
  | .fileOverview fragment =>
    (s, s.asked fun g => .ok (overviewResult s.config.limits (g.overview fragment)))

/-- Answers a call. -/
def call (s : Server) (around : Surroundings) (c : ToolCall) : Server × Except ToolError Json :=
  let (after, answer) := s.runTool around c
  (after, answer.mapError ToolError.mk)

/-! ## Starting -/

/-- The log of the server of a code base. -/
def logPath (root : Path) : Path := root.join (Path.ofText ".symgraph/mcp-server.log")

/-- Opens the log of a code base. -/
def openLog (root : Path) (files : FileTree) : FileTree :=
  if files.isFileAt (logPath root) then files
  else (files.write? [] (FileTree.place (logPath root))).getD files

/-- The session with the snapshot of a code base; one that cannot be loaded for a
    problem is passed over. -/
def startSession (h : Host) (c : Config) (root : Path) (files : FileTree) : Except Fault Session :=
  match ({} : Session).load h (c.snapshotPath root) files with
  | .ok session => .ok session
  | .error (.problem _) => .ok {}
  | .error (.fault f) => .error f

/-- The server of a code base, or one without.  The log is there even if the server
    does not start. -/
def start (h : Host) (c : Config) (root : Option Path) (files : FileTree) :
    Server × Except Fault Unit :=
  match root with
  | none => ({ config := c, files }, .ok ())
  | some r =>
    let s : Server := { config := c, files := openLog r files, root }
    match startSession h c r files with
    | .ok session => ({ s with session }, .ok ())
    | .error f => (s, .error f)

end Server

end DeclGraph
