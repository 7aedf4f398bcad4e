/-
  DeclGraph — commands.

  * `Command` is a command with checked arguments;
  * `Command.ofArgs?` reads the arguments of the command line; it fails if they
    are used in a wrong way.
-/
import DeclGraph.Cli.Arguments
import DeclGraph.FileTree
import DeclGraph.Symbol.Kind
import DeclGraph.Text.Digit

namespace DeclGraph.Cli

/-- A command. -/
inductive Command where
  | version
  | help
  /-- scan the directory at a path and write its snapshot -/
  | build (path : Path) (output : Option Path) (writeConfig asJson : Bool)
  | explain (name : String) (snapshot : Option Path) (asJson : Bool)
  /-- search for a text in one kind of symbols or the usual ones -/
  | search (text : String) (kind : Option SymbolKind) (limit : Option Int)
      (snapshot : Option Path) (asJson : Bool)
  | stats (snapshot : Option Path) (asJson : Bool)
  | overview (fragment : String) (snapshot : Option Path) (asJson : Bool)
  /-- answer calls of tools, about the directory at a path if there is one -/
  | serve (path : Option Path)
deriving DecidableEq, Inhabited, Repr

/-- What paths on the command line are checked against. -/
structure Place where
  files : FileTree
  /-- The directory that relative paths start from. -/
  workDir : Path := .top

namespace Place

/-- The path of a directory that has to be there. -/
def directory? (p : Place) (text : String) : Option Path :=
  let path := Path.ofText text
  if text != "" && (p.files.entriesAt? (p.workDir.join path)).isSome then some path else none

/-- The path of a file, which may be missing. -/
def file? (p : Place) (text : String) : Option Path :=
  let path := Path.ofText text
  if text != "" && (p.files.entriesAt? (p.workDir.join path)).isSome then none else some path

/-- The path of a file that an option may give. -/
def fileOption? (p : Place) (a : Arguments) (key : String) : Option (Option Path) :=
  match a.value? key with
  | none => some none
  | some text => (p.file? text).map some

end Place

/-! ## Options -/

/-- The option for help. -/
def helpOption : OptionSpec := { names := ["--help"] }

/-- The option for answers as JSON. -/
def jsonOption : OptionSpec := { names := ["--json"] }

/-- The option for the snapshot that is asked. -/
def snapshotOption : OptionSpec := { names := ["--snapshot"], hasValue := true }

/-- The options before the name of a command. -/
def mainOptions : List OptionSpec :=
  [{ names := ["--version"] }, { names := ["-v", "--verbose"] }, helpOption]

/-- The options of commands by name. -/
def commandOptions : List (String × List OptionSpec) :=
  [("build", [{ names := ["-o", "--output"], hasValue := true }, { names := ["--write-config"] },
      jsonOption, helpOption]),
    ("explain", [snapshotOption, jsonOption, helpOption]),
    ("search", [{ names := ["--kind"], hasValue := true }, { names := ["--limit"], hasValue := true },
      snapshotOption, jsonOption, helpOption]),
    ("stats", [snapshotOption, jsonOption, helpOption]),
    ("overview", [snapshotOption, jsonOption, helpOption]),
    ("serve", [helpOption])]

/-- The kind that a search is restricted to. -/
def kindOption? (a : Arguments) : Option (Option SymbolKind) :=
  match a.value? "--kind" with
  | none | some "all" => some none
  | some name => (SymbolKind.shown.find? (·.name == name)).map some

/-- The number of hits of a search, which is at least one. -/
def limitOption? (a : Arguments) : Option (Option Int) :=
  match a.value? "--limit" with
  | none => some none
  | some text => match Text.readInt? text with
    | some n => if n < 1 then none else some (some n)
    | none => none

/-! ## Commands -/

namespace Command

/-- Reads the separated arguments of a command. -/
def ofArguments? (p : Place) (name : String) (a : Arguments) : Option Command := do
  let asJson := a.has "--json"
  match name, a.others with
  | "build", [] =>
    some (.build (← p.directory? ".") (← p.fileOption? a "--output") (a.has "--write-config") asJson)
  | "build", [path] =>
    some (.build (← p.directory? path) (← p.fileOption? a "--output") (a.has "--write-config") asJson)
  | "explain", [symbol] => some (.explain symbol (← p.fileOption? a "--snapshot") asJson)
  | "search", [text] =>
    some (.search text (← kindOption? a) (← limitOption? a) (← p.fileOption? a "--snapshot") asJson)
  | "stats", [] => some (.stats (← p.fileOption? a "--snapshot") asJson)
  | "overview", [fragment] => some (.overview fragment (← p.fileOption? a "--snapshot") asJson)
  | "serve", [] => some (.serve none)
  | "serve", [path] => some (.serve (some (← p.directory? path)))
  | _, _ => none

/-- Reads the arguments after the name of a command. -/
def ofNamed? (p : Place) (name : String) (args : List String) : Option Command := do
  let specs ← commandOptions.lookup name
  let a ← parseArguments specs true args
  if a.has "--help" then some .help else ofArguments? p name a

/-- Reads the arguments of the command line.  The first of the options that end
    it counts. -/
def ofArgs? (p : Place) (args : List String) : Option Command := do
  let a ← parseArguments mainOptions false args
  match a.options.find? fun o => o.1 == "--version" || o.1 == "--help", a.others with
  | some ("--version", _), _ => some .version
  | some _, _ => some .help
  | none, name :: rest => ofNamed? p name rest
  | none, [] => none

end Command

end DeclGraph.Cli
