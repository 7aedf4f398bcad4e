/-
  DeclGraph — inheritance edges.

  * `edges` has one edge for every supertype of a class, struct, enum or
    extension that the type map knows; supertypes from elsewhere make none.
-/
import DeclGraph.Graph.TypeMap

namespace DeclGraph

/-- The edges of one declaration. -/
def edgesOf (types : Table TypeMapEntry) (unit : String) (s : Symbol) : List Edge :=
  s.inheritedTypes.filterMap fun supertype => do
    let entry ← types.get? (← supertype.text?)
    return { fromFile := .str unit, toFile := entry.file, fromSymbol := s.name,
             toSymbol := supertype }

/-- The edges of units. -/
def edges (units : Table UnitData) (types : Table TypeMapEntry) : List Edge :=
  units.entries.flatMap fun (unit, data) =>
    (data.symbols.inKinds SymbolKind.edgeSources).flatMap (edgesOf types unit)

end DeclGraph
