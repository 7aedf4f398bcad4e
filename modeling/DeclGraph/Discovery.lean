/-
  DeclGraph — finding source units and the project.

  * `isSkipped` says which directories are passed over with all that is below
    them;
  * `findUnits` lists the source units below a directory by their ids, which are
    their paths as seen from there;
  * `detectProject` finds the project that a directory holds: a workspace before
    a project before a package.
-/
import DeclGraph.Config.Basic
import DeclGraph.Dialect
import DeclGraph.FileTree

namespace DeclGraph

/-! ## Directories -/

/-- Directories that are always skipped: those of version control and our own. -/
def reservedDirs : List String := [".git", ".svn", ".hg", ".symgraph"]

/-- Whether a directory of some name is skipped. -/
def isSkipped (skip : List String) (name : String) : Bool :=
  reservedDirs.contains name || skip.contains name

/-! ## Source units -/

/-- A file to be parsed. -/
structure SourceUnit where
  path : Path
  id : String
  dialect : Dialect
deriving DecidableEq, Inhabited, Repr

mutual

/-- The places of the files in a tree, as seen from the root of all; `place` is
    that of the tree itself. -/
def filePlaces (skip : List String) (place : List String) : FileTree → List (List String)
  | .file _ => [place]
  | .dir entries => entryPlaces skip place entries

/-- The places of the files in the entries of a directory; directories that are
    skipped have none. -/
def entryPlaces (skip : List String) (place : List String) :
    List (String × FileTree) → List (List String)
  | [] => []
  | (name, t) :: rest =>
    (if t.isDir && isSkipped skip name then [] else filePlaces skip (place ++ [name]) t) ++
      entryPlaces skip place rest

end

/-- The unit at a place below a directory, if its ending is that of an enabled
    dialect. -/
def unitAt? (root : Path) (enabled : List Dialect) (place : List String) : Option SourceUnit := do
  let path : Path := ⟨root.root, root.names ++ place⟩
  let dialect ← Dialect.ofSuffix? path.suffix
  if enabled.contains dialect then some { path, id := "/".intercalate place, dialect } else none

/-- The source units in the entries of the directory `root`, sorted by id. -/
def findUnits (root : Path) (entries : List (String × FileTree)) (enabled : List Dialect)
    (skip : List String) : List SourceUnit :=
  ((entryPlaces skip [] entries).filterMap (unitAt? root enabled)).mergeSort fun a b => a.id ≤ b.id

/-! ## Projects -/

/-- What holds a project together. -/
inductive ProjectKind where
  | workspace
  | project
  | package
deriving DecidableEq, Inhabited, Repr

/-- The name of a kind of project. -/
def ProjectKind.name : ProjectKind → String
  | workspace => "xcworkspace"
  | project => "xcodeproj"
  | package => "swiftpm"

/-- A project. -/
structure Project where
  kind : ProjectKind
  path : Path
  name : String
deriving DecidableEq, Inhabited, Repr

/-- A project as an object. -/
def Project.toJson (p : Project) : Json :=
  .obj [("kind", .str p.kind.name), ("path", .str p.path.toText), ("name", .str p.name)]

/-- The file that makes a directory a package. -/
def packageFile : String := "Package.swift"

/-- The first directory by name, among the entries of `root`, whose ending is
    that of a kind of project. -/
def projectDir? (root : Path) (entries : List (String × FileTree)) (kind : ProjectKind) :
    Option Project :=
  let names := (entries.filter fun e =>
    e.2.isDir && (Path.splitName e.1).2 == "." ++ kind.name).map Prod.fst
  (names.mergeSort fun a b => a ≤ b).head?.map fun name =>
    { kind, path := ⟨root.root, root.names ++ [name]⟩, name := (Path.splitName name).1 }

/-- The package of `root`, if its file is there. -/
def package? (root : Path) (entries : List (String × FileTree)) : Option Project :=
  match entries.lookup packageFile with
  | some (.file _) =>
    some { kind := .package, path := ⟨root.root, root.names ++ [packageFile]⟩, name := root.name }
  | _ => none

/-- The project in the entries of the directory `root`. -/
def detectProject (root : Path) (entries : List (String × FileTree)) : Option Project :=
  projectDir? root entries .workspace <|> projectDir? root entries .project <|>
    package? root entries

end DeclGraph
