/-
  DeclGraph — nodes of syntax dumps.

  A syntax dump is a JSON value whose objects are the nodes of a tree.  The two
  dialects name the parts of a node differently; a vocabulary says where a
  dialect keeps them.  Dumps may hold any value anywhere, so parts that are
  missing or of the wrong type have to be read too.

  * `Vocabulary` is the list of parts;
  * `node?` is the node that a value is.
-/
import DeclGraph.Dialect

namespace DeclGraph.Ast

/-- A node of a syntax dump: its members. -/
abbrev Node := List (String × Json)

/-- The node that a value is: every object is one. -/
def node? : Json → Option Node
  | .obj ms => some ms
  | _ => none

/-- How a dialect writes the parts of a node. -/
structure Vocabulary where
  dialect : Dialect
  /-- The key of the children. -/
  childKey : String
  /-- Whether a node and all nodes below it were not written in the unit. -/
  excluded : Node → Bool
  /-- The tag, which tells what a node declares. -/
  tag : Node → Except Fault (Option String)
  /-- The kind of the node, as the dump writes it. -/
  rawKind : Node → Option String
  /-- The declared name; it is not empty. -/
  name : Node → Option String
  /-- The access word. -/
  accessWord : Node → Option String
  /-- The type of a variable or the result type of a function. -/
  typeName : Node → Option String
  /-- The first octet of the declaration and the count of octets. -/
  range : Node → Except Fault (Json × Json)
  /-- The names of the types that the declaration inherits from. -/
  supertypes : Node → Except Fault (List String)

end DeclGraph.Ast
