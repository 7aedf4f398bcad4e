/-
  DeclGraph — the vocabulary of Objective-C and C syntax trees.

  The tag of a node is made from its node kind, so that it holds the word of
  its symbol kind; records need the word of their own kind of record too.

  * a declaration that was made implicitly or comes from an included file is
    excluded;
  * a category has the name of the class that it extends;
  * references to other declarations may be null pointers, which have several
    spellings;
  * a type may be written as a text or as an object that holds it.
-/
import DeclGraph.Ast.Vocabulary
import DeclGraph.Text.Digit

namespace DeclGraph.Ast.ObjC

/-! ## Tags -/

/-- The tags of node kinds. -/
def tags : List (String × String) :=
  [("ObjCInterfaceDecl", "objc.decl.class"),
   ("ObjCProtocolDecl", "objc.decl.protocol"),
   ("ObjCCategoryDecl", "objc.decl.extension"),
   ("ObjCMethodDecl", "objc.decl.method"),
   ("ObjCPropertyDecl", "objc.decl.var.property"),
   ("ObjCIvarDecl", "objc.decl.var.ivar"),
   ("FunctionDecl", "c.decl.function"),
   ("CXXMethodDecl", "cxx.decl.method"),
   ("VarDecl", "c.decl.var"),
   ("FieldDecl", "c.decl.var.field"),
   ("ParmVarDecl", "c.decl.var.parameter"),
   ("EnumDecl", "c.decl.enum")]

/-- The kinds of records. -/
def recordKinds : List String := ["RecordDecl", "CXXRecordDecl"]

/-- The tags of records by the word that declares them. -/
def recordTags : List (String × String) :=
  [("struct", "c.decl.struct"), ("class", "c.decl.class")]

/-- The node kind. -/
def kindOf (node : Node) : Option String := (Json.memberOrNull "kind" node).text?

/-- The tag of a node.  Kinds that are not known are their own tags; the word of
    a record cannot be a collection. -/
def tagOf (node : Node) : Except Fault (Option String) :=
  match kindOf node with
  | none => .ok none
  | some kind =>
    if recordKinds.contains kind then
      let word := Json.memberOrNull "tagUsed" node
      if word.isCollection then .error .wrongType
      else .ok (some ((word.text?.bind fun w => recordTags.lookup w).getD kind))
    else .ok (some ((tags.lookup kind).getD kind))

/-! ## References and types -/

/-- The text of a null pointer. -/
def nullPointer : String := "0x0"

/-- The name that a reference to a declaration gives; null pointers and values
    of other types give none. -/
def refName? : Json → Option String
  | .str s => if s = nullPointer then none else (Json.str s).nonEmptyText?
  | .obj ms =>
    if (Json.memberOrNull "id" ms).isText nullPointer then none
    else (Json.memberOrNull "name" ms).nonEmptyText?
  | _ => none

/-- The text of a type. -/
def typeText? : Json → Option String
  | .obj ms => (Json.memberOrNull "qualType" ms).text?
  | .str s => some s
  | _ => none

/-- The superclass, the protocols and the bases, in this order. -/
def supertypes (node : Node) : Except Fault (List String) := do
  let super := (refName? (Json.memberOrNull "super" node)).toList
  let protocols ← (Json.memberOrNull "protocols" node).listedOrNone
  let bases ← (Json.memberOrNull "bases" node).listedOrNone
  let baseName (base : Json) : Option String := do
    let name ← typeText? (Json.memberOrNull "type" (← node? base))
    (Json.str name).nonEmptyText?
  return super ++ protocols.filterMap refName? ++ bases.filterMap baseName

/-! ## Names, places and exclusion -/

/-- The declared name; for a category that of the extended class. -/
def nameOf (node : Node) : Option String :=
  if kindOf node = some "ObjCCategoryDecl" then refName? (Json.memberOrNull "interface" node)
  else (Json.memberOrNull "name" node).nonEmptyText?

/-- The blocks of a location: the location itself and the two places of a
    macro. -/
def locationBlocks (location : Json) : List Node :=
  match location with
  | .obj ms => ms :: ["spellingLoc", "expansionLoc"].filterMap fun key =>
      node? (Json.memberOrNull key ms)
  | _ => []

/-- Whether a node was made implicitly or comes from an included file. -/
def isForeign (node : Node) : Bool :=
  (Json.memberOrNull "isImplicit" node).truthy ||
    (locationBlocks (Json.memberOrNull "loc" node)).any fun block =>
      (Json.member? "includedFrom" block).isSome

/-- The length of a token: an integer, a number cut to its integer part, or a
    text that writes an integer. -/
def tokenLength : Json → Except Fault Int
  | .float x => match x.truncate with
    | some n => .ok n
    | none => .error .badNumber
  | .str s => match Text.readInt? s with
    | some n => .ok n
    | none => .error .badNumber
  | j => match j.intOrBool? with
    | some n => .ok n
    | none => .error .wrongType

/-- Where the first token of a node starts, as it is written and as a number,
    where its last one starts, and that token. -/
def boundsOf? (node : Node) : Option (Json × Int × Int × Node) := do
  let range ← node? (Json.memberOrNull "range" node)
  let first ← node? (Json.memberOrNull "begin" range)
  let last ← node? (Json.memberOrNull "end" range)
  let start := Json.memberOrNull "offset" first
  return (start, ← start.intOrBool?, ← (Json.memberOrNull "offset" last).intOrBool?, last)

/-- The offset of the location of a node, `null` if it is no number. -/
def placeOf (node : Node) : Json :=
  let place := ((node? (Json.memberOrNull "loc" node)).map (Json.memberOrNull "offset")).getD .null
  if place.intOrBool?.isSome then place else .null

/-- The range of a node: from the start of its first token to the end of its
    last one.  Without both, the place of the node and no length. -/
def rangeOf (node : Node) : Except Fault (Json × Json) :=
  match boundsOf? node with
  | some (start, from_, past, last) => do
    let width ← tokenLength ((Json.member? "tokLen" last).getD (.int 0))
    return (start, .int (past + width - from_))
  | none => .ok (placeOf node, .null)

/-! ## Vocabulary -/

/-- How a syntax tree of Objective-C or C writes the parts of a node. -/
def vocabulary : Vocabulary where
  dialect := .objc
  childKey := "inner"
  excluded := isForeign
  tag := tagOf
  rawKind := kindOf
  name := nameOf
  accessWord node := (Json.memberOrNull "access" node).text?
  typeName node :=
    typeText? (Json.memberOrNull (if kindOf node = some "ObjCMethodDecl" then "returnType" else "type")
      node)
  range := rangeOf
  supertypes := supertypes

end DeclGraph.Ast.ObjC
