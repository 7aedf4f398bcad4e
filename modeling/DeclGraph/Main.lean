/-
  DeclGraph — the program.

  The program runs a command on the directory in which it is started.  It runs
  no parsers itself: the dump of a unit is the file that has its name with
  `.ast.json` after it.  As a server it reads one call from each line, an object
  with the members `tool` and `args`, and answers it in a line.
-/
import DeclGraph.Cli.Run
import Std.Time.Format

namespace DeclGraph.Program

open DeclGraph

/-! ## Reading -/

/-- The endings of the files whose contents are needed. -/
def readSuffixes : List String := [".json", ".yaml"]

/-- Directories that are never needed. -/
def unread : List String := [".git", ".hg", ".svn"]

/-- What stands at a path on the disk. -/
partial def readTree (base : Path) : IO FileTree := do
  let here := (← IO.currentDir) / base.toText
  if ← here.isDir then
    let entries := (← here.readDir).toList.filter fun e => !unread.contains e.fileName
    return .dir (← entries.mapM fun e => do
      return (e.fileName, ← readTree (base.join ⟨"", [e.fileName]⟩)))
  else if readSuffixes.contains base.suffix then
    return .file (← IO.FS.readBinFile here).toList
  else return .file []

/-- Reads what stands at a path, if anything does, into a tree. -/
def readInto (files : FileTree) (path : Path) : IO FileTree := do
  if ← ((← IO.currentDir) / path.toText).pathExists then
    return (FileTree.put? (← readTree path) (FileTree.place path) files).getD files
  else return files

/-- The variables that are set. -/
def readEnvironment : IO (List (String × String)) := do
  let names := Config.fileVariable :: Config.variableNames.map Text.asciiUpper
  let found ← names.mapM fun name => do
    return (← IO.getEnv name).map fun value => (name, value)
  return found.filterMap id

/-- The time as a text. -/
def readTime : IO String := do
  let now := Std.Time.DateTime.ofTimestamp (← Std.Time.Timestamp.now) Std.Time.TimeZone.ZoneRules.UTC
  return now.format "uuuu-MM-dd'T'HH:mm:ss.SSSSSSxxx"

/-- The home directories of the users in the lines of a list of users. -/
def homesOf (users : String) : List (String × String) :=
  (users.splitOn "\n").filterMap fun line => match line.splitOn ":" with
    | name :: _ :: _ :: _ :: _ :: home :: _ => some (name, home)
    | _ => none

/-- The machine on which the program runs. -/
def readHost : IO Host := do
  let own ← IO.getEnv "HOME"
  let users ← try IO.FS.readFile "/etc/passwd" catch _ => pure ""
  let homes := homesOf users
  return { home user := if user = "" then some (own.getD "/") else homes.lookup user }

/-- What a command meets here. -/
def readTerminal (args : List String) : IO Cli.Terminal := do
  let began ← IO.monoMsNow
  let workDir := Path.ofText (← IO.currentDir).toString
  let host ← readHost
  let home := Path.ofText ((host.home "").getD "/")
  let globalFile := home.join (Path.ofText ".config/symgraph/config.yaml")
  let environment ← readEnvironment
  let named := (args.filter fun a => !a.startsWith "-").map fun a => workDir.join (Path.ofText a)
  let other := (environment.lookup Config.fileVariable).bind fun a =>
    ((Path.ofText a).expand host).toOption.map workDir.join
  let files ← (workDir :: globalFile :: named ++ other.toList).foldlM readInto .empty
  let passed := (← IO.monoMsNow) - began
  return {
    host, files, workDir, environment, globalFile, now := ← readTime
    elapsed := .measured (.ofRatio false passed 1000)
    outcome u := match files.contentAt? (Path.ofText (u.path.toText ++ ".ast.json")) with
      | some dump => .finished 0 dump []
      | none => .notStarted "no recorded dump" }

/-! ## Writing -/

/-- Writes the files that have changed. -/
def writeChanges (before after : FileTree) : IO Unit := do
  for (names, content) in FileTree.changes before after do
    let path := (← IO.currentDir) / (Path.mk "/" names).toText
    if let some parent := path.parent then IO.FS.createDirAll parent
    IO.FS.writeBinFile path ⟨content.toArray⟩

/-- What a fault says. -/
def faultText : Fault → String
  | .tooDeep => "lists and objects lie too deep in one another"
  | .longInteger => "an integer has too many digits"
  | .badScalar => "a number or a time is none"
  | .undecodable => "a file does not hold a text"
  | .directory => "a directory stands in the place of a file"
  | .longPath => "a path is too long"
  | .nullInPath => "a path holds a null character"
  | .homeless => "the home directory of a user is not known"
  | f => (f.message?).getD "a value has the wrong type"

/-- Why something broke off. -/
def crashText : Cli.Crash → String
  | .problem p => p.toText
  | .fault f => faultText f
  | .markup => "a closing tag does not match any open tag"
  | .variable_ field => "error parsing the value of the variable of " ++ field
  | .noDirectory => "a directory cannot be made"

/-- Tells how a command ended, and gives the exit status. -/
def report (ending : Except Cli.Ending Unit) : IO UInt32 := do
  match ending with
  | .ok _ => return 0
  | .error .usage =>
    for line in Cli.helpLines do IO.eprintln line
    return 2
  | .error (.failed message) =>
    IO.eprintln ("Error: " ++ message)
    return 1
  | .error (.crashed c) =>
    IO.eprintln (crashText c)
    return 1

/-! ## Serving -/

/-- Answers the call in a line. -/
def answerLine (s : Server) (around : Surroundings) (line : String) : Server × Json :=
  let failed (reason : String) : Server × Json := (s, .obj [("error", .str reason)])
  match Json.read around.host.readDepth line with
  | .ok (.obj call) =>
    let tool := ((Json.member? "tool" call).bind Json.text?).getD ""
    let args := match Json.memberOrNull "args" call with
      | .obj args => args
      | _ => []
    match ToolCall.ofJson tool args with
    | .error .unknownTool => failed "unknown tool"
    | .error .badArguments => failed "bad arguments"
    | .ok c => match s.call around c with
      | (s, .ok result) => (s, result)
      | (s, .error e) => (s, .obj [("error", .str (faultText e.cause))])
  | _ => failed "no call"

/-- Answers calls until there are no more. -/
partial def serve (s : Server) (around : Surroundings) : IO Unit := do
  let line ← (← IO.getStdin).getLine
  if line.isEmpty then return
  let (next, result) := answerLine s around line
  writeChanges s.files next.files
  IO.println (result.render .oneLine)
  (← IO.getStdout).flush
  serve next around

end DeclGraph.Program

open DeclGraph in
/-- Runs the command line. -/
def main (args : List String) : IO UInt32 := do
  let t ← Program.readTerminal args
  match Cli.Command.ofArgs? { files := t.files, workDir := t.workDir } args with
  | some (.serve path) =>
    match (Cli.runServe t path).run { files := t.files } with
    | (.ok server, left) =>
      Program.writeChanges t.files left.files
      Program.serve server t.toSurroundings
      return 0
    | (.error ending, _) => Program.report (.error ending)
  | _ =>
    let (ending, left) := Cli.runArgs t args
    Program.writeChanges t.files left.files
    for line in left.notes do IO.eprintln line
    for line in left.output do IO.println line
    Program.report ending
