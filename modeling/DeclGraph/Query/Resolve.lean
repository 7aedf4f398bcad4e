/-
  DeclGraph — resolving a name.

  Names are looked up without regard to scopes.

  * `Graph.resolve` is the first declaration of a name in the index; if there is
    none, the declaration in the type map;
  * `Graph.members` are the members of a name in the unit that it resolves to.

  Graphs that were read from documents may hold any value in the place of a unit
  or a name.  A collection cannot be looked up.
-/
import DeclGraph.Graph.Basic

namespace DeclGraph

/-- What a table binds a value to.  Only texts are bound, and collections cannot
    be looked up. -/
def Table.at? {α : Type _} (t : Table α) (key : Json) : Except Fault (Option α) :=
  if key.isCollection then .error .wrongType else .ok (key.text?.bind t.get?)

/-- A table can always be asked for a text. -/
@[simp] theorem Table.at?_str {α : Type _} (t : Table α) (key : String) :
    t.at? (.str key) = .ok (t.get? key) := by
  simp [Table.at?, Json.isCollection, Json.text?]

/-- A declaration that a name stands for. -/
structure Resolved where
  symbol : Symbol
  /-- The unit that declares it. -/
  file : Json
  kind : SymbolKind
deriving DecidableEq, Inhabited, Repr

/-- A resolved declaration as an object: the symbol with its place. -/
def Resolved.toJson (r : Resolved) : Json :=
  .obj ({ r.symbol with file := r.file }.toMembers ++ [("symbolKind", .str r.kind.name)])

namespace Graph

/-- The first indexed declaration of a name, if its unit holds it. -/
def resolveIndexed (g : Graph) (name : String) : Except Fault (Option Resolved) := do
  match (g.indexes.byName.get? name).getD [] with
  | [] => return none
  | location :: _ =>
    let unit ← g.files.at? location.file
    return (unit.bind fun u => u.symbols.find? name location.kind).map fun symbol =>
      { symbol, file := location.file, kind := location.kind }

/-- The declaration of a name in the type map. -/
def resolveType (g : Graph) (name : String) : Option Resolved :=
  (g.typeMap.get? name).map fun entry =>
    { symbol := entry.symbol, file := entry.file, kind := entry.kind }

/-- The declaration that a name stands for. -/
def resolve (g : Graph) (name : String) : Except Fault (Option Resolved) := do
  match ← g.resolveIndexed name with
  | some found => return some found
  | none => return g.resolveType name

/-- The members of a name; none if the name or its unit is not known. -/
def members (g : Graph) (name : String) : Except Fault MemberSet := do
  match ← g.resolve name with
  | none => return {}
  | some found =>
    let unit ← g.files.at? found.file
    return (unit.bind fun u => u.members.get? name).getD {}

end Graph

end DeclGraph
