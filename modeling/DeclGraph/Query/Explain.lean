/-
  DeclGraph — all about one name.

  * `Graph.explain` joins the declaration of a name, its supertypes, its members
    and its usages;
  * a supertype is external unless the type map knows where it is declared.
-/
import DeclGraph.Query.Usages

namespace DeclGraph

/-- A supertype and where it is declared, if that is known. -/
structure Supertype where
  name : Json
  kind : Option SymbolKind := none
  file : Json := .null
deriving DecidableEq, Inhabited, Repr

/-- Whether it is not known where a supertype is declared. -/
def Supertype.isExternal (t : Supertype) : Bool := t.file == .null

/-- A supertype as an object. -/
def Supertype.toJson (t : Supertype) : Json :=
  .obj [("name", t.name), ("kind", .ofText? (t.kind.map SymbolKind.name)), ("file", t.file),
    ("external", .bool t.isExternal)]

/-- What there is to say about a name. -/
structure Explanation where
  resolved : Resolved
  inherits : List Supertype
  members : MemberSet
  usages : Usages
deriving DecidableEq, Inhabited

/-- The members of an explanation as an object. -/
def Explanation.toMembers (e : Explanation) : List (String × Json) :=
  [("symbol", e.resolved.toJson), ("inherits", .arr (e.inherits.map Supertype.toJson)),
    ("members", e.members.toJson), ("usages", e.usages.toJson)]

/-- An explanation as an object. -/
def Explanation.toJson (e : Explanation) : Json := .obj e.toMembers

namespace Graph

/-- A supertype as the type map knows it. -/
def supertype (g : Graph) (name : Json) : Except Fault Supertype := do
  match ← g.typeMap.at? name with
  | none => return { name }
  | some entry => return { name, kind := some entry.kind, file := entry.file }

/-- Explains a name; nothing if the name is not known. -/
def explain (g : Graph) (name : String) : Except Fault (Option Explanation) := do
  match ← g.resolve name with
  | none => return none
  | some resolved =>
    return some {
      resolved
      inherits := ← resolved.symbol.inheritedTypes.mapM g.supertype
      members := ← g.members name
      usages := ← g.usagesOutside name resolved.file }

end Graph

end DeclGraph
