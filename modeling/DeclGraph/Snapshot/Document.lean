/-
  DeclGraph — snapshot documents.

  A snapshot is a graph as one JSON document.  Older documents lack the format
  version and write the units, and the files of symbols, as absolute paths;
  reading makes such paths relative to the root of the code base.

  * `Graph.toDocument` writes a graph;
  * `Graph.ofDocument` reads a document, and fails at its first flaw.
-/
import DeclGraph.Graph.Basic

namespace DeclGraph

/-- Why a document is no snapshot. -/
inductive SnapshotFlaw where
  | rootNotObject
  /-- keys that every snapshot has -/
  | missingKeys (keys : List String)
  | unsupportedVersion (version : Json)
  /-- an entry with a value that cannot be used -/
  | malformed (fault : Fault)
  /-- the file does not hold a document -/
  | notJson
  /-- an integer in the file has more digits than may be read -/
  | longInteger (digits : Nat)
  /-- the file does not hold a text -/
  | notText
deriving DecidableEq, Repr

/-- The text of a flaw. -/
def SnapshotFlaw.message : SnapshotFlaw → String
  | rootNotObject => "snapshot root must be an object"
  | missingKeys keys => "missing keys: " ++ ", ".intercalate keys
  | unsupportedVersion version => "unsupported formatVersion " ++ version.plain
  | malformed (.missingKey key) => "malformed entry: KeyError(" ++ Text.quoted key ++ ")"
  | malformed fault => fault.message?.getD "malformed entry: TypeError"
  | notJson => "invalid JSON"
  | longInteger digits =>
    "Exceeds the limit (" ++ toString Text.maxIntDigits ++
      " digits) for integer string conversion: value has " ++ toString digits ++
      " digits; use sys.set_int_max_str_digits() to increase the limit"
  | notText => "invalid UTF-8"

/-! ## Paths under the root -/

/-- What stands before the ids of units in absolute paths: the root of the code
    base and one slash. -/
def rootHead (repoPath : Json) : Option String :=
  repoPath.nonEmptyText?.map fun root =>
    String.ofList (Text.dropEndWhile (· = '/') root.toList) ++ "/"

/-- A path without the root of the code base. -/
def belowRoot (head : Option String) (path : String) : String :=
  match head with
  | some h => Text.dropPrefix h path
  | none => path

/-- A stored file without the root of the code base; it has to be a text. -/
def fileBelowRoot (head : String) (file : Json) : Except Fault Json :=
  match file with
  | .str path => .ok (.str (Text.dropPrefix head path))
  | _ => .error .wrongType

/-- A symbol with its file relative to the root of the code base. -/
def Symbol.rebase (head : String) (s : Symbol) : Except Fault Symbol := do
  return { s with file := ← fileBelowRoot head s.file }

/-- The data of a unit with all files of symbols relative to the root. -/
def UnitData.rebase (head : String) (data : UnitData) : Except Fault UnitData := do
  return { data with symbols := ← data.symbols.mapSymbolsM (Symbol.rebase head) }

/-- An entry of the type map with the file of its symbol relative to the root. -/
def TypeMapEntry.rebase (head : String) (entry : TypeMapEntry) : Except Fault TypeMapEntry := do
  return { entry with symbol := ← entry.symbol.rebase head }

namespace Graph

/-! ## Writing -/

/-- The version of the documents that are written. -/
def formatVersion : Int := 1

/-- The document of a graph. -/
def toDocument (g : Graph) : Json :=
  .obj [
    ("formatVersion", .int formatVersion),
    ("repoPath", g.repoPath),
    ("generatedAt", g.generatedAt),
    ("files", .ofTable UnitData.toJson g.files),
    ("dependencyGraph", .obj [
      ("typeMap", .ofTable TypeMapEntry.toJson g.typeMap),
      ("edges", .arr (g.edges.map Edge.toJson))]),
    ("indexes", g.indexes.toJson)]

/-! ## Reading -/

/-- The keys that a document has to have. -/
def requiredKeys : List String := ["files", "dependencyGraph", "indexes"]

/-- Whether documents of a version can be read: all versions up to the current
    one, and truth values count as numbers. -/
def isSupported (version : Json) : Bool :=
  match version.intOrBool? with
  | some n => decide (n ≤ formatVersion)
  | none => false

/-- Makes the file of every symbol relative to the root. -/
def rebase (head : Option String) (g : Graph) : Except Fault Graph :=
  match head with
  | none => .ok g
  | some h => do
    let units ← Table.mapValuesM (UnitData.rebase h) g.files.entries
    let types ← Table.mapValuesM (TypeMapEntry.rebase h) g.typeMap.entries
    return { g with files := Table.ofList units, typeMap := Table.ofList types }

/-- Reads the entries of a document. -/
def ofEntries (ms : List (String × Json)) : Except Fault Graph := do
  let repoPath := Json.memberOrNull "repoPath" ms
  let head := rootHead repoPath
  let units ← Table.mapValuesM UnitData.ofJson (← (Json.memberOrNull "files" ms).membersOrNone)
  let dependencies ← (Json.memberOrNull "dependencyGraph" ms).membersOrNone
  let types ← Table.mapValuesM TypeMapEntry.ofJson
    (← (Json.memberOrNull "typeMap" dependencies).membersOrNone)
  let edges ← (← (Json.memberOrNull "edges" dependencies).listedOrNone).mapM Edge.ofJson
  let indexes ← Indexes.ofMembers (← (Json.memberOrNull "indexes" ms).membersOrNone)
  rebase head {
    files := Table.ofList (units.map fun u => (belowRoot head u.1, u.2))
    typeMap := Table.ofList types, edges, indexes, repoPath
    generatedAt := Json.memberOrNull "generatedAt" ms }

/-- Reads a document. -/
def ofDocument (document : Json) : Except SnapshotFlaw Graph := do
  let ms ← match document with
    | .obj ms => pure ms
    | _ => throw .rootNotObject
  let missing := requiredKeys.filter fun key => (Json.member? key ms).isNone
  if missing ≠ [] then throw (.missingKeys missing)
  let version := (Json.member? "formatVersion" ms).getD (.int formatVersion)
  if !isSupported version then throw (.unsupportedVersion version)
  (ofEntries ms).mapError .malformed

end Graph

end DeclGraph
