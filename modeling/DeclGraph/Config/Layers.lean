/-
  DeclGraph — layers of configuration.

  A configuration is put together from layers: the defaults, a global file, the
  file of the user, a file named by the caller, environment variables, and the
  overrides of the caller.  A higher layer wins field by field.

  * `merge` puts one object over another, member by member and at any depth;
  * `Sources` holds the layers, and `resolve` puts them together and checks the
    result.
-/
import DeclGraph.Config.Environment
import DeclGraph.Config.User

namespace DeclGraph

namespace Config

/-! ## Merging -/

mutual

/-- A value over another one: two objects are merged, else the upper one counts. -/
def cover (base : Json) : Json → Json
  | .obj upper => match base with
    | .obj lower => .obj (merge lower upper)
    | _ => .obj upper
  | j => j

/-- The members `upper` over the members `lower`: the keys of `lower` come first
    and keep their order. -/
def merge (lower : List (String × Json)) : List (String × Json) → List (String × Json)
  | [] => lower
  | (key, value) :: rest =>
    let merged := match Json.member? key lower with
      | some base => cover base value
      | none => value
    merge (Table.put key merged lower) rest

end

/-! ## Files -/

/-- What it means for a configuration file that its text is not read. -/
def unreadFile (path : Path) : Yaml.Flaw → Failure
  | .malformed => .problem (.configUnreadable path.toText none)
  | .tooDeep => .fault .tooDeep
  | .badScalar => .fault .badScalar

/-- The members of a configuration file that is there; an empty one has none. -/
def membersOfText (h : Host) (path : Path) (s : String) :
    Except Failure (List (String × Json)) := do
  let j ← (Yaml.read h.configDepth s).mapError (unreadFile path)
  if j.truthy then
    match j with
    | .obj ms => return ms
    | _ => throw (.problem (.configUnreadable path.toText (some "top level must be a mapping")))
  else return []

/-- The members of a configuration file seen from a directory; a missing one has
    none. -/
def membersOfFile (h : Host) (path : Path) (files : FileTree) (workDir : Path := .top) :
    Except Failure (List (String × Json)) := do
  match ← (files.textAt? path workDir).mapError .fault with
  | none => return []
  | some s => membersOfText h path s

/-- The members of a configuration file that has to be there. -/
def membersOfNamedFile (h : Host) (path : Path) (files : FileTree) (workDir : Path := .top) :
    Except Failure (List (String × Json)) :=
  if files.refusesPath workDir path then .error (.fault .longPath)
  else if files.isFileAt (workDir.join path) then membersOfFile h path files workDir
  else .error (.problem (.configMissing path.toText))

/-! ## Layers -/

/-- Where a configuration comes from. -/
structure Sources where
  host : Host := {}
  files : FileTree
  /-- The directory that relative paths start from. -/
  workDir : Path := .top
  /-- The global file. -/
  globalFile : Path
  /-- The file that the caller names. -/
  named : Option Path := none
  /-- The environment variables. -/
  environment : List (String × String) := []
  /-- The overrides of the caller by section. -/
  overrides : List (String × Json) := []

/-- The variable that names a file. -/
def fileVariable : String := "SYMGRAPH_CONFIG"

/-- The file that the caller or the environment names; a home directory may stand for a
    tilde in the environment. -/
def Sources.namedFile (s : Sources) : Except Fault (Option Path) :=
  match s.named with
  | some path => .ok (some path)
  | none => match s.environment.lookup fileVariable with
    | some "" | none => .ok none
    | some text => ((Path.ofText text).expand s.host).map some

/-- The layers of the files: global, of the user, named. -/
def Sources.fileLayer (s : Sources) (root : Path) : Except Failure (List (String × Json)) := do
  let user ← (UserConfig.load s.host root s.files).mapError .fault
  let global ← membersOfFile s.host s.globalFile s.files
  let named ← match ← s.namedFile.mapError .fault with
    | some path => membersOfNamedFile s.host path s.files s.workDir
    | none => pure []
  return merge (merge global user.sections) named

/-- What it means for the configuration that a value is refused. -/
def refused (r : Rejection) : Failure :=
  if r.reason = .homeless then .fault .homeless else .problem r.problem

/-- The configuration of a code base. -/
def resolve (s : Sources) (root : Path) : Except Failure Config := do
  let files ← s.fileLayer root
  let environment ← environmentLayer s.host s.environment
  let all := merge (merge files environment) s.overrides
  (ofMembers s.host all).mapError refused

end Config

end DeclGraph
