/-
  DeclGraph — a graph and a unit at a glance.

  * `Graph.stats` counts the symbols of each kind and ranks the units by size;
  * `Graph.overview` shows the symbols of the one unit whose id holds a text.
-/
import DeclGraph.Graph.Basic
import DeclGraph.Text.Case

namespace DeclGraph

/-! ## Statistics -/

/-- The sum of numbers. -/
def total (ns : List Nat) : Nat := ns.foldr (· + ·) 0

/-- The counts of a graph. -/
structure GraphStats where
  units : Nat
  /-- The number of symbols of each kind that is shown. -/
  counts : List (SymbolKind × Nat)
  /-- Units with their numbers of indexed symbols, largest first. -/
  largest : List (String × Nat)
deriving DecidableEq, Inhabited, Repr

namespace GraphStats

/-- The count of one kind. -/
def count (s : GraphStats) (kind : SymbolKind) : Nat := (s.counts.lookup kind).getD 0

/-- The number of types. -/
def types (s : GraphStats) : Nat := total (SymbolKind.types.map s.count)

/-- Statistics as an object. -/
def toJson (s : GraphStats) : Json :=
  .obj [("units", .int s.units), ("types", .int s.types),
    ("counts", .obj (s.counts.map fun (kind, n) => (kind.bucket, .int n))),
    ("largest_units", .arr (s.largest.map fun (unit, n) =>
      .obj [("file", .str unit), ("symbols", .int n)]))]

end GraphStats

/-- The number of symbols of a unit that the indexes record. -/
def UnitData.indexedCount (u : UnitData) : Nat := total (SymbolKind.indexed.map u.symbols.count)

namespace Graph

/-- The number of symbols of a kind in all units. -/
def countOf (g : Graph) (kind : SymbolKind) : Nat :=
  total (g.files.values.map fun u => u.symbols.count kind)

/-- All units with their sizes, largest first; units of one size keep their
    order. -/
def unitsBySize (g : Graph) : List (String × Nat) :=
  (g.files.entries.map fun (unit, data) => (unit, data.indexedCount)).mergeSort
    fun a b => b.2 ≤ a.2

/-- The statistics of a graph with the front of the list of units. -/
def stats (g : Graph) (largest : Option Int) : GraphStats where
  units := g.unitCount
  counts := SymbolKind.shown.map fun kind => (kind, g.countOf kind)
  largest := match largest with
    | some limit => upTo limit g.unitsBySize
    | none => g.unitsBySize

end Graph

/-! ## Units -/

/-- What a text says about the units of a graph. -/
structure UnitOverview where
  query : String
  /-- The units whose ids hold the text. -/
  hits : List String
  /-- The symbols by kind, if there is exactly one such unit. -/
  sections : List (SymbolKind × List Symbol)
deriving DecidableEq, Inhabited

namespace UnitOverview

/-- The one unit that a text stands for. -/
def unit? (o : UnitOverview) : Option String :=
  match o.hits with
  | [unit] => some unit
  | _ => none

/-- An overview as an object. -/
def toJson (o : UnitOverview) : Json :=
  .obj [("query", .str o.query), ("matches", .ofTexts o.hits), ("unit", .ofText? o.unit?),
    ("sections", .obj (o.sections.map fun (kind, symbols) =>
      (kind.bucket, .arr (symbols.map Symbol.toJson))))]

end UnitOverview

namespace Graph

/-- The units whose ids hold a text in any letter case. -/
def unitsHolding (g : Graph) (fragment : String) : List String :=
  g.files.keys.filter fun unit => Text.contains (Text.toLower unit) (Text.toLower fragment)

/-- The symbols of a unit by kind. -/
def sectionsOf (g : Graph) (unit : String) : List (SymbolKind × List Symbol) :=
  match g.files.get? unit with
  | some data => SymbolKind.shown.map fun kind => (kind, data.symbols.bucket kind)
  | none => []

/-- The overview of the unit whose id holds a text. -/
def overview (g : Graph) (fragment : String) : UnitOverview :=
  let hits := g.unitsHolding fragment
  { query := fragment, hits
    sections := match hits with
      | [unit] => g.sectionsOf unit
      | _ => [] }

end Graph

end DeclGraph
