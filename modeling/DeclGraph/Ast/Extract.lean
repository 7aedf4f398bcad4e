/-
  DeclGraph — what a unit declares, read off its syntax dump.

  Every visited node with a tag and a name declares something.  If its tag
  stands for a symbol kind, the node makes a symbol.  The members of a type are
  the children of the first node that declares something of that name, whatever
  it is.

  * `declaration` reads one node;
  * `membersOf` sorts the children of a node into member roles;
  * `extract` is the table of symbols and the table of members of a unit.
-/
import DeclGraph.Ast.ObjC
import DeclGraph.Ast.Swift
import DeclGraph.Ast.Walk
import DeclGraph.Symbol.Basic

namespace DeclGraph

/-- The vocabulary of a dialect. -/
def Dialect.vocabulary : Dialect → Ast.Vocabulary
  | swift => Ast.Swift.vocabulary
  | objc => Ast.ObjC.vocabulary

namespace Ast

/-! ## Declarations -/

/-- A node that declares something. -/
structure Declaration where
  name : String
  node : Node
  /-- The symbol that the node makes, if its tag stands for a kind. -/
  symbol : Option Symbol

/-- The symbol that a node of a kind makes. -/
def symbolOf (v : Vocabulary) (unit : String) (node : Node) (name : String)
    (kind : SymbolKind) : Except Fault Symbol := do
  let (offset, length) ← v.range node
  let supertypes ← v.supertypes node
  let access := Access.ofWord? (v.accessWord node) (some (defaultAccess unit))
  return {
    name := .str name, kind, file := .str unit, offset, length
    inheritedTypes := supertypes.map .str
    access := access.getD (defaultAccess unit)
    rawKind := .ofText? (v.rawKind node)
    typeName := .ofText? (v.typeName node)
    extendedType := if kind = .extension then .str name else .null }

/-- What a node declares; nothing without a tag or without a name. -/
def declaration (v : Vocabulary) (unit : String) (node : Node) :
    Except Fault (Option Declaration) := do
  match ← v.tag node, v.name node with
  | some tag, some name =>
    if tag = "" then return none
    match SymbolKind.classify? tag with
    | none => return some { name, node, symbol := none }
    | some kind => return some { name, node, symbol := some (← symbolOf v unit node name kind) }
  | _, _ => return none

/-- What the nodes of a dump declare, in the order of the walk. -/
def declarations (v : Vocabulary) (unit : String) (dump : Json) :
    Except Fault (List Declaration) := do
  return (← (visited v dump).mapM (declaration v unit)).filterMap id

/-! ## Members -/

/-- What initializers begin with. -/
def initializerHead : String := "init"

/-- Whether a callable member is an initializer. -/
def isInitializer (name : String) : Bool := Text.startsWith name initializerHead

/-- A child in the role of a member: the role, the name and the member. -/
def roleOf (v : Vocabulary) (child : Node) : Except Fault (Option (SymbolKind × String × Member)) := do
  match v.name child with
  | none => return none
  | some name =>
    let member : Member :=
      { name := .str name, typeName := .ofText? (v.typeName child)
        access := Access.ofWord? (v.accessWord child) none }
    return ((← v.tag child).bind SymbolKind.memberRole?).map (·, name, member)

/-- The members of a node; initializers have no type. -/
def membersOf (v : Vocabulary) (node : Node) : Except Fault MemberSet := do
  let roles := (← (← children v node).mapM (roleOf v)).filterMap id
  let callable (initializing : Bool) : List Member := roles.filterMap fun (role, name, member) =>
    if role = .function && isInitializer name == initializing then some member else none
  return {
    properties := roles.filterMap fun (role, _, member) =>
      if role = .variable_ then some member else none
    methods := callable false
    initializers := (callable true).map fun member => { member with typeName := .null } }

/-! ## Units -/

/-- The names of the types among symbols, with the node that each name takes its
    members from. -/
def memberOwners (declared : List Declaration) (symbols : SymbolTable) : List (String × Node) :=
  (symbols.inKinds SymbolKind.types).filterMap fun s => do
    let name ← s.name.text?
    let owner ← declared.find? (·.name = name)
    return (name, owner.node)

/-- What a unit declares. -/
def extract (dialect : Dialect) (unit : String) (dump : Json) : Except Fault UnitData := do
  let v := dialect.vocabulary
  let declared ← declarations v unit dump
  let symbols := SymbolTable.ofSymbols (declared.filterMap Declaration.symbol)
  let sets ← Table.mapValuesM (membersOf v) (memberOwners declared symbols)
  return { dialect, symbols, members := Table.ofList sets }

end Ast

end DeclGraph
