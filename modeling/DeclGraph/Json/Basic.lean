/-
  DeclGraph — JSON values.

  Syntax dumps, snapshots and configuration files are JSON values.  Objects
  keep the order of their members; integers and floating point numbers are two
  types, told apart by how the number is written.

  * `Json` has decidable equality of values as they are written;
  * `Json.member?` looks a key up among the members of an object;
  * `Json.truthy` is false of the empty value of every type;
  * `Json.height` is how many lists and objects lie in one another.
-/
import DeclGraph.Number.Binary64
import DeclGraph.Table

namespace DeclGraph

/-- A JSON value. -/
inductive Json where
  | null
  | bool (b : Bool)
  | int (n : Int)
  | float (x : Binary64)
  | str (s : String)
  | arr (items : List Json)
  | obj (members : List (String × Json))
deriving Inhabited, Repr

namespace Json

/-! ## Equality -/

mutual

/-- Whether two values are the same. -/
def same : Json → Json → Bool
  | null, null => true
  | bool a, bool b => a == b
  | int a, int b => a == b
  | float a, float b => decide (a = b)
  | str a, str b => a == b
  | arr xs, arr ys => sameItems xs ys
  | obj ms, obj ns => sameMembers ms ns
  | _, _ => false

/-- Whether two lists of values are the same. -/
def sameItems : List Json → List Json → Bool
  | [], [] => true
  | x :: xs, y :: ys => same x y && sameItems xs ys
  | _, _ => false

/-- Whether two lists of members are the same. -/
def sameMembers : List (String × Json) → List (String × Json) → Bool
  | [], [] => true
  | (k, x) :: ms, (l, y) :: ns => k == l && same x y && sameMembers ms ns
  | _, _ => false

end

mutual

theorem same_iff : ∀ a b : Json, same a b = true ↔ a = b
  | null, b => by cases b <;> simp [same]
  | bool _, b => by cases b <;> simp [same]
  | int _, b => by cases b <;> simp [same]
  | float _, b => by cases b <;> simp [same]
  | str _, b => by cases b <;> simp [same]
  | arr xs, b => by cases b <;> simp [same, sameItems_iff xs]
  | obj ms, b => by cases b <;> simp [same, sameMembers_iff ms]

theorem sameItems_iff : ∀ xs ys : List Json, sameItems xs ys = true ↔ xs = ys
  | [], ys => by cases ys <;> simp [sameItems]
  | x :: xs, ys => by cases ys <;> simp [sameItems, same_iff x, sameItems_iff xs]

theorem sameMembers_iff : ∀ ms ns : List (String × Json), sameMembers ms ns = true ↔ ms = ns
  | [], ns => by cases ns <;> simp [sameMembers]
  | (k, x) :: ms, ns => by
    cases ns with
    | nil => simp [sameMembers]
    | cons n ns => simp [sameMembers, same_iff x, sameMembers_iff ms, Prod.ext_iff, and_assoc]

end

instance : DecidableEq Json := fun a b => decidable_of_iff _ (same_iff a b)

/-! ## Reading values -/

/-- Whether a value counts as present: all do but `null`, `false`, the zeros,
    and the empty text, list and object. -/
def truthy : Json → Bool
  | null => false
  | bool b => b
  | int n => n != 0
  | float x => !x.isZero
  | str s => s != ""
  | arr items => !items.isEmpty
  | obj members => !members.isEmpty

/-- The value of a key among the members of an object. -/
def member? (key : String) (members : List (String × Json)) : Option Json := members.lookup key

/-- The value of a key among the members of an object; `null` if it is missing. -/
def memberOrNull (key : String) (members : List (String × Json)) : Json :=
  (member? key members).getD null

/-- The text that a value is, if it is one. -/
def text? : Json → Option String
  | str s => some s
  | _ => none

/-- The text that a value is, if it is one and not empty. -/
def nonEmptyText? : Json → Option String
  | str s => if s = "" then none else some s
  | _ => none

/-- Whether a value is the given text. -/
def isText (s : String) (j : Json) : Bool := j == str s

/-- Whether a value is a list or an object. -/
def isCollection : Json → Bool
  | arr _ | obj _ => true
  | _ => false

/-- The integer that a value is; the truth values count as one and zero. -/
def intOrBool? : Json → Option Int
  | int n => some n
  | bool b => some (if b then 1 else 0)
  | _ => none

/-! ## Size -/

mutual

/-- How many lists and objects lie in one another. -/
def height : Json → Nat
  | arr items => heightOfItems items + 1
  | obj members => heightOfMembers members + 1
  | _ => 0

/-- The height of the highest of some values. -/
def heightOfItems : List Json → Nat
  | [] => 0
  | x :: xs => max (height x) (heightOfItems xs)

/-- The height of the highest value of some members. -/
def heightOfMembers : List (String × Json) → Nat
  | [] => 0
  | (_, x) :: ms => max (height x) (heightOfMembers ms)

end

/-! ## Building objects -/

/-- An object with the given members; of several members with one key the last
    value stands at the first place. -/
def ofMembers (members : List (String × Json)) : Json :=
  obj (members.foldl (fun ms m => Table.put m.1 m.2 ms) [])

/-- The object of a table. -/
def ofTable {α : Type _} (f : α → Json) (t : Table α) : Json :=
  obj (t.entries.map fun e => (e.1, f e.2))

/-- A text, or `null`. -/
def ofText? : Option String → Json
  | some s => str s
  | none => null

/-- The list of some texts. -/
def ofTexts (xs : List String) : Json := arr (xs.map str)

end Json

end DeclGraph
