/-
  DeclGraph — building a graph from the syntax dumps of units.

  A unit of which the dump cannot be read, or of which the dialect is not known,
  is left out of the graph and reported; the others are not touched by it.

  * `readAll` reads the dumps one by one and notes which units failed;
  * `Graph.ofUnits` derives type map, edges and indexes from what units declare;
  * `build` does both, once all units are read.
-/
import DeclGraph.Ast.Extract
import DeclGraph.Graph.Edges
import DeclGraph.Graph.Indexes

namespace DeclGraph

/-- A source unit before its dump is read. -/
structure RawUnit where
  id : String
  /-- The name of the dialect of the dump. -/
  dialect : Json
  dump : Json
deriving DecidableEq, Inhabited

/-- What a raw unit declares. -/
def RawUnit.extract (u : RawUnit) : Except Fault UnitData := do
  Ast.extract (← Dialect.ofJson u.dialect) u.id u.dump

/-- The raw units by their ids: of several units with one id the last one stands
    at the first place. -/
def rawTable (units : List RawUnit) : Table RawUnit := Table.ofList (units.map fun u => (u.id, u))

/-- How building went. -/
structure BuildStats where
  /-- The number of units given, … -/
  total : Nat := 0
  /-- … of those that are in the graph, … -/
  processed : Nat := 0
  /-- … of those that are not, … -/
  errors : Nat := 0
  /-- … and the ids of these. -/
  failed : List String := []
deriving DecidableEq, Inhabited, Repr

/-- The stats as an object. -/
def BuildStats.toJson (s : BuildStats) : Json :=
  .obj [("total", .int s.total), ("processed", .int s.processed), ("errors", .int s.errors),
    ("failed_units", .ofTexts s.failed)]

namespace Graph

/-- The graph of units. -/
def ofUnits (units : Table UnitData) (repoPath generatedAt : Json) : Graph where
  files := units
  typeMap := DeclGraph.typeMap units
  edges := DeclGraph.edges units (DeclGraph.typeMap units)
  indexes := DeclGraph.indexes units
  repoPath := repoPath
  generatedAt := generatedAt

end Graph

/-! ## Reading the dumps -/

/-- What came of the raw units that were read so far. -/
structure Reading where
  units : Table UnitData := .empty
  errors : Nat := 0
  failed : List String := []

/-- Records what came of a unit. -/
def Reading.record (r : Reading) (id : String) : Except Fault UnitData → Reading
  | .ok data => { r with units := r.units.insert id data }
  | .error _ => { r with errors := r.errors + 1, failed := r.failed ++ [id] }

/-- Reads raw units. -/
def readAll (raw : Table RawUnit) : Reading :=
  raw.entries.foldl (fun r (id, u) => r.record id u.extract) {}

/-- The units that were read, in the order of the raw units. -/
def joined (raw : Table RawUnit) (units : Table UnitData) : Table UnitData :=
  Table.ofList (raw.keys.filterMap fun id => (units.get? id).map (id, ·))

/-! ## Building -/

/-- Builds the graph of raw units. -/
def build (units : List RawUnit) (repoPath generatedAt : Json) : Graph × BuildStats :=
  let raw := rawTable units
  let read := readAll raw
  let graph := Graph.ofUnits (joined raw read.units) repoPath generatedAt
  (graph, { total := raw.size, processed := graph.unitCount, errors := read.errors,
            failed := read.failed })

end DeclGraph
