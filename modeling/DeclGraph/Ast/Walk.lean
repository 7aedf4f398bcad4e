/-
  DeclGraph — the nodes of a syntax dump.

  A dump is walked from the root down: a node comes before its children, and
  children come in their order.  Only a list of children is walked, and a node
  that is excluded takes all nodes below it along.

  * `walk` goes through a stack of values, and `visited` through a dump;
  * `children` is the list of the children that a node may have as members.
-/
import DeclGraph.Ast.Vocabulary

namespace DeclGraph.Ast

variable (v : Vocabulary)

/-! ## Walking -/

/-- The values that a node lists in the place of its children; none if there is
    something else than a list. -/
def childValues (node : Node) : List Json :=
  match Json.memberOrNull v.childKey node with
  | .arr items => items
  | _ => []

private theorem sizeOf_lookup {key : String} {value : Json} :
    ∀ {ms : Node}, ms.lookup key = some value → sizeOf value < sizeOf ms
  | [], h => by simp at h
  | (k, x) :: ms, h => by
    simp only [List.lookup_cons] at h
    split at h
    · cases h; simp only [List.cons.sizeOf_spec, Prod.mk.sizeOf_spec]; omega
    · have := sizeOf_lookup h
      simp only [List.cons.sizeOf_spec]; omega

/-- What a node lists is smaller than the node. -/
theorem sizeOf_childValues (node : Node) : sizeOf (childValues v node) < sizeOf (Json.obj node) := by
  simp only [childValues, Json.memberOrNull, Json.member?, Json.obj.sizeOf_spec]
  cases h : node.lookup v.childKey with
  | none =>
    have : 0 < sizeOf node := by
      cases node <;> simp only [List.nil.sizeOf_spec, List.cons.sizeOf_spec] <;> omega
    simp only [Option.getD_none, List.nil.sizeOf_spec]; omega
  | some value =>
    have := sizeOf_lookup h
    cases value with
    | arr items =>
      simp only [Json.arr.sizeOf_spec] at this
      simp only [Option.getD_some]; omega
    | _ => simp only [Option.getD_some, List.nil.sizeOf_spec]; omega

private theorem sizeOf_append (items stack : List Json) :
    sizeOf (items ++ stack) + 1 = sizeOf items + sizeOf stack := by
  induction items with
  | nil => rw [List.nil_append, List.nil.sizeOf_spec, Nat.add_comm]
  | cons item items ih =>
    rw [List.cons_append, List.cons.sizeOf_spec, List.cons.sizeOf_spec]
    omega

/-- The nodes met on the way through a stack of values, the first one on top.
    What a node lists is put on top of the stack. -/
def walk : List Json → List Node
  | [] => []
  | .obj node :: stack =>
    if v.excluded node then walk stack else node :: walk (childValues v node ++ stack)
  | _ :: stack => walk stack
termination_by stack => sizeOf stack
decreasing_by
  · simp only [List.cons.sizeOf_spec]; omega
  · have := sizeOf_childValues v node
    have := sizeOf_append (childValues v node) stack
    simp only [List.cons.sizeOf_spec]; omega
  · simp only [List.cons.sizeOf_spec]; omega

/-- The nodes of a dump in the order of the walk. -/
def visited (dump : Json) : List Node := walk v [dump]

/-! ## Children -/

/-- The nodes among values that are not excluded. -/
def included (items : List Json) : List Node :=
  (items.filterMap node?).filter fun node => !v.excluded node

/-- The children of a node that are not excluded.  The value in the place of
    children may list other things than nodes, but it has to list something. -/
def children (node : Node) : Except Fault (List Node) :=
  (Json.memberOrNull v.childKey node).listedOrNone.map (included v)

end DeclGraph.Ast
