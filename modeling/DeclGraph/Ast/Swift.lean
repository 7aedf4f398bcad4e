/-
  DeclGraph — the vocabulary of Swift structure dumps.

  Every key of a node begins with `key.`.  A node that the compiler made is
  marked as implicit or has a name that begins with a dollar sign.

  No part of a node is ever refused: what has the wrong type counts as missing.
-/
import DeclGraph.Ast.Vocabulary

namespace DeclGraph.Ast.Swift

/-- The text of a key that is not empty. -/
def nameOf (node : Node) : Option String :=
  (Json.memberOrNull "key.name" node).nonEmptyText?

/-- Whether the compiler made a node. -/
def isSynthesized (node : Node) : Bool :=
  (Json.memberOrNull "key.is_implicit" node).truthy ||
    match (Json.memberOrNull "key.name" node).text? with
    | some name => Text.startsWith name "$"
    | none => false

/-- The names in a list of supertypes; entries without a name are left out. -/
def supertypes (node : Node) : List String :=
  match Json.memberOrNull "key.inheritedtypes" node with
  | .arr entries => entries.filterMap fun entry => (node? entry).bind nameOf
  | _ => []

/-- The integer of a key, or `null`. -/
def intOrNull (key : String) (node : Node) : Json :=
  match Json.memberOrNull key node with
  | .int n => .int n
  | _ => .null

/-- How a Swift structure dump writes the parts of a node. -/
def vocabulary : Vocabulary where
  dialect := .swift
  childKey := "key.substructure"
  excluded := isSynthesized
  tag node := .ok (Json.memberOrNull "key.kind" node).text?
  rawKind node := (Json.memberOrNull "key.kind" node).text?
  name := nameOf
  accessWord node := (Json.memberOrNull "key.accessibility" node).text?
  typeName node := (Json.memberOrNull "key.typename" node).text?
  range node := .ok (intOrNull "key.offset" node, intOrNull "key.length" node)
  supertypes node := .ok (supertypes node)

end DeclGraph.Ast.Swift
