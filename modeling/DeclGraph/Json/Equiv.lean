/-
  DeclGraph — equality of JSON values up to their writing.

  Two numbers are equal when their values are, the truth values count as one
  and zero, and the members of an object have no order.

  * `Json.equiv` is this equality; on texts it is equality.
-/
import DeclGraph.Json.Basic

namespace DeclGraph.Json

mutual

/-- Equality of values up to the writing of numbers and the order of members. -/
def equiv : Json → Json → Bool
  | null, null => true
  | str a, str b => a == b
  | float a, float b => a.equals b
  | arr xs, arr ys => equivItems xs ys
  | obj ms, obj ns => ms.length == ns.length && equivMembers ms ns
  | float a, b => match b.intOrBool? with
    | some n => a.equalsInt n
    | none => false
  | a, float b => match a.intOrBool? with
    | some n => b.equalsInt n
    | none => false
  | a, b => match a.intOrBool?, b.intOrBool? with
    | some m, some n => m == n
    | _, _ => false

/-- Equality of two lists, item by item. -/
def equivItems : List Json → List Json → Bool
  | [], [] => true
  | x :: xs, y :: ys => equiv x y && equivItems xs ys
  | _, _ => false

/-- Whether every member of the first list has an equal one in the second. -/
def equivMembers : List (String × Json) → List (String × Json) → Bool
  | [], _ => true
  | (k, x) :: ms, ns => (match member? k ns with
    | some y => equiv x y
    | none => false) && equivMembers ms ns

end

theorem equiv_str (a b : String) : equiv (str a) (str b) = (a == b) := by simp [equiv]

end DeclGraph.Json
