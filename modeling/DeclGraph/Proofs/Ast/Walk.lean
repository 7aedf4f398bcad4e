/-
  What the walk through a stack of values meets.

  The nodes of a stack are those of its values, one value after the other, and
  the nodes of a value are the value itself and the nodes of what it lists.
-/
import DeclGraph.Ast.Walk

namespace DeclGraph.Ast

variable (v : Vocabulary)

/-! ## Stacks -/

theorem walk_nil : walk v [] = [] := by rw [walk]

theorem walk_of_not_node {item : Json} (h : ∀ node, item = .obj node → False) (stack : List Json) :
    walk v (item :: stack) = walk v stack := by
  rw [walk]
  exact h

/-- **A stack is walked from the top down:** the values above are done before
    the values below are begun. -/
theorem walk_append (upper lower : List Json) :
    walk v (upper ++ lower) = walk v upper ++ walk v lower := by
  induction upper using walk.induct v with
  | case1 => rw [walk_nil, List.nil_append, List.nil_append]
  | case2 node stack h ih =>
    rw [List.cons_append, walk, if_pos h, walk, if_pos h, ih]
  | case3 node stack h ih =>
    rw [List.cons_append, walk, if_neg h, walk, if_neg h, ← List.append_assoc, ih, List.cons_append]
  | case4 item stack h ih =>
    rw [List.cons_append, walk_of_not_node v h, walk_of_not_node v h, ih]

theorem walk_eq_flatMap (stack : List Json) : walk v stack = stack.flatMap (visited v) := by
  induction stack with
  | nil => exact walk_nil v
  | cons item stack ih =>
    rw [← List.singleton_append, walk_append, ih]
    rfl

/-! ## Values -/

theorem visited_excluded {node : Node} (h : v.excluded node = true) :
    visited v (.obj node) = [] := by
  rw [visited, walk, if_pos h, walk_nil]

/-- A node comes before the nodes below it. -/
theorem visited_included {node : Node} (h : v.excluded node = false) :
    visited v (.obj node) = node :: (childValues v node).flatMap (visited v) := by
  rw [visited, walk, if_neg (by rw [h]; exact Bool.false_ne_true), List.append_nil,
    walk_eq_flatMap]

theorem visited_of_not_node {item : Json} (h : ∀ node, item = .obj node → False) :
    visited v item = [] := by
  rw [visited, walk_of_not_node v h, walk_nil]

theorem sizeOf_lt_of_mem_childValues {node : Node} {item : Json} (h : item ∈ childValues v node) :
    sizeOf item < sizeOf (Json.obj node) :=
  Nat.lt_trans (List.sizeOf_lt_of_mem h) (sizeOf_childValues v node)

/-- Induction from the values that a node lists to the node. -/
theorem dump_induction {P : Json → Prop}
    (node : ∀ node, (∀ item ∈ childValues v node, P item) → P (.obj node))
    (other : ∀ item, (∀ node, item = .obj node → False) → P item) : ∀ dump, P dump := by
  intro dump
  induction h : sizeOf dump using Nat.strongRecOn generalizing dump with
  | _ n ih =>
    cases dump with
    | obj ms =>
      exact node ms fun item hitem =>
        ih (sizeOf item) (h ▸ sizeOf_lt_of_mem_childValues v hitem) item rfl
    | _ => exact other _ nofun

end DeclGraph.Ast
