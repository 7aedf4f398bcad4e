/-
  DeclGraph — symbols as JSON.

  Every type of the symbol model is written by `toJson` and read back by
  `ofJson`.  Optional parts that are missing are not written.  Reading accepts
  any value for a part whose type is not needed to build the symbol.

  * a symbol whose stored kind is none of the seven takes the kind that its
    place implies, and the stored kind counts as the tag of its node.
-/
import DeclGraph.Symbol.Basic

namespace DeclGraph

/-- The members of an object that are not `null`. -/
def Json.present (members : List (String × Json)) : List (String × Json) :=
  members.filter fun m => m.2 != .null

/-! ## Symbols -/

namespace Symbol

/-- The members of a symbol's object. -/
def toMembers (s : Symbol) : List (String × Json) :=
  [("name", s.name), ("kind", .str s.kind.name), ("file", s.file),
    ("inheritedTypes", .arr s.inheritedTypes), ("accessibility", .str s.access.name)] ++
  Json.present [("rawKind", s.rawKind), ("typeName", s.typeName), ("offset", s.offset),
    ("length", s.length), ("extendedType", s.extendedType)]

/-- A symbol as an object. -/
def toJson (s : Symbol) : Json := .obj s.toMembers

/-- The kind that a stored value says, if it is one of the seven; collections
    cannot be compared with names. -/
def storedKind? (j : Json) : Except Fault (Option SymbolKind) :=
  if j.isCollection then .error .wrongType else .ok (j.text?.bind SymbolKind.ofName?)

/-- Reads a symbol; `implied` is the kind that its place implies. -/
def ofJson (implied : Option SymbolKind) (j : Json) : Except Fault Symbol := do
  let ms ← j.members
  let stored := Json.memberOrNull "kind" ms
  let known ← storedKind? stored
  match known <|> implied with
  | none => throw (.kindless (Json.memberOrNull "name" ms))
  | some kind =>
    let name ← Json.required "name" ms
    let inherited ← (Json.memberOrNull "inheritedTypes" ms).listedOrNone
    let access ← Access.ofJson (Json.memberOrNull "accessibility" ms) (some .internal)
    let raw := Json.memberOrNull "rawKind" ms
    return {
      name, kind
      file := (Json.member? "file" ms).getD (.str "")
      inheritedTypes := inherited
      access := access.getD .internal
      rawKind := if raw.truthy then raw else if known.isSome then .null else stored
      typeName := Json.memberOrNull "typeName" ms
      offset := Json.memberOrNull "offset" ms
      length := Json.memberOrNull "length" ms
      extendedType := Json.memberOrNull "extendedType" ms }

end Symbol

/-! ## Members -/

namespace Member

/-- A member as an object; `typeKey` is where its type is written, if it is. -/
def toJson (typeKey : Option String) (m : Member) : Json :=
  let typed := match typeKey with
    | some key => if m.typeName.truthy then [(key, m.typeName)] else []
    | none => []
  let access := match m.access with
    | some a => [("access", Json.str a.name)]
    | none => []
  .obj (("name", m.name) :: typed ++ access)

/-- Reads a member. -/
def ofJson (typeKey : Option String) (j : Json) : Except Fault Member := do
  let ms ← j.members
  let name ← Json.required "name" ms
  let access ← Access.ofJson (Json.memberOrNull "access" ms) none
  return { name, access, typeName := (typeKey.map fun key => Json.memberOrNull key ms).getD .null }

end Member

namespace MemberSet

/-- The roles of members with the members as objects. -/
def roles (m : MemberSet) : List (String × List Json) :=
  [("properties", m.properties.map (Member.toJson (some "type"))),
    ("methods", m.methods.map (Member.toJson (some "returnType"))),
    ("initializers", m.initializers.map (Member.toJson none))]

/-- A member set as an object. -/
def toJson (m : MemberSet) : Json := .obj (m.roles.map fun (role, items) => (role, .arr items))

/-- Reads a member set; a missing role has no members. -/
def ofJson (j : Json) : Except Fault MemberSet := do
  let ms ← j.members
  let role (key : String) (typeKey : Option String) : Except Fault (List Member) := do
    (← ((Json.member? key ms).getD (.arr [])).listed).mapM (Member.ofJson typeKey)
  return {
    properties := ← role "properties" (some "type")
    methods := ← role "methods" (some "returnType")
    initializers := ← role "initializers" none }

end MemberSet

/-! ## Tables -/

namespace SymbolTable

/-- A table as an object with one list per bucket. -/
def toJson (t : SymbolTable) : Json :=
  .obj (SymbolKind.all.map fun k => (k.bucket, .arr ((t.bucket k).map Symbol.toJson)))

/-- The stored symbols of one bucket. -/
def bucketOfJson (ms : List (String × Json)) (k : SymbolKind) : Except Fault (List Symbol) := do
  (← (Json.memberOrNull k.bucket ms).listedOrNone).mapM (Symbol.ofJson (some k))

/-- Reads a table, bucket after bucket. -/
def ofMembers (ms : List (String × Json)) : Except Fault SymbolTable :=
  ofBucketsM (bucketOfJson ms)

/-- Reads a table. -/
def ofJson (j : Json) : Except Fault SymbolTable := do ofMembers (← j.members)

end SymbolTable

namespace UnitData

/-- The data of a unit as an object. -/
def toJson (u : UnitData) : Json :=
  .obj [("dialect", .str u.dialect.name), ("symbols", u.symbols.toJson),
    ("memberData", .ofTable MemberSet.toJson u.members)]

/-- Reads the data of a unit. -/
def ofJson (j : Json) : Except Fault UnitData := do
  let ms ← j.members
  let dialect ← Dialect.ofJson ((Json.member? "dialect" ms).getD (.str Dialect.swift.name))
  let symbols ← SymbolTable.ofMembers (← (Json.memberOrNull "symbols" ms).membersOrNone)
  let sets ← Table.mapValuesM MemberSet.ofJson (← (Json.memberOrNull "memberData" ms).membersOrNone)
  return { dialect, symbols, members := Table.ofList sets }

end UnitData

end DeclGraph
