/-
  DeclGraph — the type map.

  * `typeMap` binds every name that some unit declares as a class, struct,
    protocol or enum to its last declaration.
-/
import DeclGraph.Graph.Basic

namespace DeclGraph

/-- The declarations of types in units, in the order of the units, with their
    names. -/
def typeDeclarations (units : Table UnitData) : List (String × TypeMapEntry) :=
  units.entries.flatMap fun (unit, data) =>
    (data.symbols.inKinds SymbolKind.types).filterMap fun s =>
      s.name.text?.map fun n => (n, { file := .str unit, kind := s.kind, symbol := s })

/-- The type map of units.  The last declaration of a name is the one that
    counts. -/
def typeMap (units : Table UnitData) : Table TypeMapEntry := Table.ofList (typeDeclarations units)

end DeclGraph
