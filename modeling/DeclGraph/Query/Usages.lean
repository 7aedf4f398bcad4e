/-
  DeclGraph — usages of a name.

  A usage is a place outside of the declaring unit where the name comes up
  again: as a supertype, as the name of an extension, as another declaration of
  the name, or as the type of a variable or function.  So no usages means that
  none can be shown, not that there are none.

  * `Graph.usages` lists them for the declaration that a name stands for.
-/
import DeclGraph.Json.Equiv
import DeclGraph.Query.Resolve

namespace DeclGraph

/-- A declaration that inherits from a type. -/
structure Inheritor where
  name : Json
  file : Json
deriving DecidableEq, Inhabited, Repr

/-- An extension of a type and the names that it adds as supertypes. -/
structure ExtensionSite where
  file : String
  conformances : List Json
deriving DecidableEq, Inhabited, Repr

/-- An inheriting declaration as an object. -/
def Inheritor.toJson (i : Inheritor) : Json := .obj [("name", i.name), ("file", i.file)]

/-- An extension as an object. -/
def ExtensionSite.toJson (e : ExtensionSite) : Json :=
  .obj [("file", .str e.file), ("conformances", .arr e.conformances)]

/-- Where a name is used. -/
structure Usages where
  inheritedBy : List Inheritor := []
  extendedIn : List ExtensionSite := []
  referencedIn : List String := []
deriving DecidableEq, Inhabited, Repr

namespace Usages

/-- Whether there is any usage. -/
def any (u : Usages) : Bool :=
  !(u.inheritedBy.isEmpty && u.extendedIn.isEmpty && u.referencedIn.isEmpty)

/-- Usages as an object. -/
def toJson (u : Usages) : Json :=
  .obj [("inheritedBy", .arr (u.inheritedBy.map Inheritor.toJson)),
    ("extendedIn", .arr (u.extendedIn.map ExtensionSite.toJson)),
    ("referencedIn", .ofTexts u.referencedIn)]

end Usages

/-- Whether a symbol refers to a name by its type or by its supertypes. -/
def Symbol.mentions (s : Symbol) (name : String) : Bool :=
  s.typeName.isText name || s.inheritedTypes.any (·.isText name)

namespace Graph

/-- The declarations that inherit from a name. -/
def inheritors (g : Graph) (name : String) : List Inheritor :=
  (g.edges.filter (·.toSymbol.isText name)).map fun e => ⟨e.fromSymbol, e.fromFile⟩

/-- The units other than `home` of a graph. -/
def otherUnits (g : Graph) (home : Json) : List (String × UnitData) :=
  g.files.entries.filter fun entry => !home.isText entry.1

/-- The extensions of a name in other units. -/
def extensionSites (g : Graph) (name : String) (home : Json) : List ExtensionSite :=
  (g.otherUnits home).flatMap fun (unit, data) =>
    ((data.symbols.bucket .extension).filter (·.name.isText name)).map fun s =>
      ⟨unit, s.inheritedTypes⟩

/-- The other places of a name in the index; none of them can be a collection. -/
def otherPlaces (g : Graph) (name : String) (home : Json) : Except Fault (List Json) :=
  let places := ((g.indexes.byName.get? name).getD []).map IndexLocation.file
  let others := places.filter fun place => !Json.equiv place home
  if others.any Json.isCollection then .error .wrongType else .ok others

/-- The other units that declare a name again or refer to it. -/
def referencingUnits (g : Graph) (name : String) (home : Json) : Except Fault (List String) := do
  let others ← g.otherPlaces name home
  return ((g.otherUnits home).filter fun (unit, data) =>
    others.any (·.isText unit) || data.symbols.symbols.any (·.mentions name)).map Prod.fst

/-- The usages of a name outside of the unit `home`. -/
def usagesOutside (g : Graph) (name : String) (home : Json) : Except Fault Usages := do
  return {
    inheritedBy := g.inheritors name
    extendedIn := g.extensionSites name home
    referencedIn := ← g.referencingUnits name home }

/-- The usages of a name; none if the name is not known. -/
def usages (g : Graph) (name : String) : Except Fault (Option Usages) := do
  match ← g.resolve name with
  | none => return none
  | some found => return some (← g.usagesOutside name found.file)

end Graph

end DeclGraph
