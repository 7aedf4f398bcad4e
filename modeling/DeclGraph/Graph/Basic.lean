/-
  DeclGraph — graphs of declarations.

  A graph joins the units of a code base: the type map says which unit declares
  a type, an edge leads from a declaration to a type that it inherits from, and
  three indexes list the declarations by name, by kind and by unit.
-/
import DeclGraph.Symbol.Codec

namespace DeclGraph

/-- Where a type name is declared. -/
structure TypeMapEntry where
  /-- The declaring unit. -/
  file : Json
  kind : SymbolKind
  symbol : Symbol
deriving DecidableEq, Inhabited, Repr

/-- The symbol `fromSymbol` of the unit `fromFile` inherits from or extends the
    type `toSymbol` of the unit `toFile`. -/
structure Edge where
  fromFile : Json
  toFile : Json
  fromSymbol : Json
  toSymbol : Json
deriving DecidableEq, Inhabited, Repr

/-- One declaration of a name. -/
structure IndexLocation where
  file : Json
  kind : SymbolKind
deriving DecidableEq, Inhabited, Repr

/-- The declarations by name, by kind and by unit, each list in order. -/
structure Indexes where
  byName : Table (List IndexLocation) := .empty
  byKind : Table (List Json) := .empty
  byFile : Table (List Json) := .empty
deriving DecidableEq, Inhabited

/-- A graph of declarations. -/
structure Graph where
  /-- The units by their ids. -/
  files : Table UnitData
  typeMap : Table TypeMapEntry
  edges : List Edge
  indexes : Indexes
  /-- The root of the code base, `null` if it is not known. -/
  repoPath : Json
  /-- When the graph was built. -/
  generatedAt : Json
deriving DecidableEq, Inhabited

/-- The number of units of a graph. -/
def Graph.unitCount (g : Graph) : Nat := g.files.size

/-! ## As JSON -/

/-- An entry of the type map as an object. -/
def TypeMapEntry.toJson (e : TypeMapEntry) : Json :=
  .obj [("file", e.file), ("kind", .str e.kind.name), ("symbol", e.symbol.toJson)]

/-- Reads an entry of the type map. -/
def TypeMapEntry.ofJson (j : Json) : Except Fault TypeMapEntry := do
  let ms ← j.members
  let kind ← SymbolKind.ofJson (← Json.required "kind" ms)
  let file ← Json.required "file" ms
  let symbol ← Symbol.ofJson (some kind) (← Json.required "symbol" ms)
  return { file, kind, symbol }

/-- An edge as an object. -/
def Edge.toJson (e : Edge) : Json :=
  .obj [("from", e.fromFile), ("to", e.toFile), ("fromSymbol", e.fromSymbol),
    ("toSymbol", e.toSymbol)]

/-- Reads an edge. -/
def Edge.ofJson (j : Json) : Except Fault Edge := do
  let ms ← j.members
  return {
    fromFile := ← Json.required "from" ms
    toFile := ← Json.required "to" ms
    fromSymbol := ← Json.required "fromSymbol" ms
    toSymbol := ← Json.required "toSymbol" ms }

/-- A location as an object. -/
def IndexLocation.toJson (l : IndexLocation) : Json :=
  .obj [("file", l.file), ("kind", .str l.kind.name)]

/-- Reads a location. -/
def IndexLocation.ofJson (j : Json) : Except Fault IndexLocation := do
  let ms ← j.members
  let file ← Json.required "file" ms
  let kind ← SymbolKind.ofJson (← Json.required "kind" ms)
  return { file, kind }

/-- The indexes as an object. -/
def Indexes.toJson (ix : Indexes) : Json :=
  .obj [("byName", .ofTable (fun locs => .arr (locs.map IndexLocation.toJson)) ix.byName),
    ("byKind", .ofTable .arr ix.byKind), ("byFile", .ofTable .arr ix.byFile)]

/-- Reads a table of which each value lists items. -/
def tableOfJson {α : Type} (item : Json → Except Fault α) (j : Json) :
    Except Fault (Table (List α)) := do
  let items (value : Json) : Except Fault (List α) := do (← value.listed).mapM item
  return Table.ofList (← Table.mapValuesM items (← j.membersOrNone))

/-- Reads the indexes out of members. -/
def Indexes.ofMembers (ms : List (String × Json)) : Except Fault Indexes := do
  return {
    byName := ← tableOfJson IndexLocation.ofJson (Json.memberOrNull "byName" ms)
    byKind := ← tableOfJson pure (Json.memberOrNull "byKind" ms)
    byFile := ← tableOfJson pure (Json.memberOrNull "byFile" ms) }

/-- Reads the indexes. -/
def Indexes.ofJson (j : Json) : Except Fault Indexes := do ofMembers (← j.members)

end DeclGraph
