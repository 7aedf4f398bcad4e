/-
  DeclGraph — nodes of YAML documents, and their values.

  A document is read as a tree of nodes first, and the values of its plain scalars
  are looked at only when the whole of it is well formed.  This is done level by
  level: the keys and the scalars of a collection come before what stands in its
  collections.

  * `Node` is a part of a document, and `Flaw` is why there is no value;
  * `Node.value` is the value of a node.
-/
import DeclGraph.Json.Literal
import DeclGraph.Yaml.Scalar

namespace DeclGraph.Yaml

/-- Why a text gives no value. -/
inductive Flaw where
  /-- it is not well formed, or a part of it has no value that could stand there -/
  | malformed
  /-- collections lie too deep in one another -/
  | tooDeep
  /-- a plain scalar has the form of a number or a time and is none -/
  | badScalar
deriving DecidableEq, Repr

/-- A part of a document. -/
inductive Node where
  /-- a scalar without quotes -/
  | plain (s : String)
  /-- a scalar that is a text in any case -/
  | text (s : String)
  | list (items : List Node)
  | mapping (members : List (Node × Node))
deriving Inhabited

namespace Node

/-! ## Flaws -/

/-- The flaw of a scalar. -/
def flaw? : Node → Option Flaw
  | plain s => match resolve s with
    | .ok _ => none
    | .error .reserved => some .malformed
    | .error .invalid => some .badScalar
  | _ => none

/-- The flaw of a key: a collection cannot be one.  The reserved word of a default
    value can. -/
def keyFlaw? : Node → Option Flaw
  | list _ | mapping _ => some .malformed
  | k => if k matches plain "=" then none else k.flaw?

/-- Two lists of levels, level by level. -/
def joinLevels {α : Type _} : List (List α) → List (List α) → List (List α)
  | [], ys => ys
  | xs, [] => xs
  | x :: xs, y :: ys => (x ++ y) :: joinLevels xs ys

mutual

/-- The flaws inside a node, by the depth of the collection that they are in. -/
def levels : Node → List (List Flaw)
  | list items => items.filterMap flaw? :: levelsOfItems items
  | mapping members =>
    (members.flatMap fun m => m.1.keyFlaw?.toList ++ m.2.flaw?.toList) :: levelsOfMembers members
  | _ => []

/-- The flaws inside some nodes. -/
def levelsOfItems : List Node → List (List Flaw)
  | [] => []
  | x :: xs => joinLevels (levels x) (levelsOfItems xs)

/-- The flaws inside the values of some members. -/
def levelsOfMembers : List (Node × Node) → List (List Flaw)
  | [] => []
  | (_, x) :: ms => joinLevels (levels x) (levelsOfMembers ms)

end

/-- The flaws of a node and of all that is in it, the first one first. -/
def flaws (n : Node) : List Flaw := n.flaw?.toList ++ n.levels.flatten

/-! ## Values -/

/-- A node as a key. -/
def key : Node → String
  | text s => s
  | plain s => match resolve s with
    | .ok (.obj _) | .error _ => s
    | .ok j => j.plain
  | _ => ""

/-- Whether a node is a text as a key. -/
def isTextKey : Node → Bool
  | text _ => true
  | plain s => isText s || s == "="
  | _ => false

mutual

/-- The value of a node without flaws. -/
def toJson : Node → Json
  | plain s => (resolve s).toOption.getD .null
  | text s => .str s
  | list items => .arr (itemsToJson items)
  | mapping members => .ofMembers (membersToJson members)

/-- The values of some nodes. -/
def itemsToJson : List Node → List Json
  | [] => []
  | x :: xs => toJson x :: itemsToJson xs

/-- The values of some members. -/
def membersToJson : List (Node × Node) → List (String × Json)
  | [] => []
  | (k, x) :: ms => (k.key, toJson x) :: membersToJson ms

end

/-- The value of a node; its first flaw counts. -/
def value (n : Node) : Except Flaw Json :=
  match n.flaws with
  | flaw :: _ => .error flaw
  | [] => .ok n.toJson

/-- Whether a node is a mapping in which some key is no text. -/
def hasOddKey : Node → Bool
  | mapping members => members.any fun m => !m.1.isTextKey
  | _ => false

end Node

end DeclGraph.Yaml
