/-
  DeclGraph — access levels.

  * `Access.ofWord` maps the word of either dialect to one of four levels.
-/
import DeclGraph.Fault
import DeclGraph.Text.Basic

namespace DeclGraph

/-- The access level of a declaration. -/
inductive Access where
  | public_
  | internal
  | private_
  | unknown
deriving DecidableEq, Inhabited, Repr

namespace Access

/-- All levels. -/
def all : List Access := [public_, internal, private_, unknown]

/-- The name of a level. -/
def name : Access → String
  | public_ => "public"
  | internal => "internal"
  | private_ => "private"
  | unknown => "unknown"

/-- The level of a name. -/
def ofName? (s : String) : Option Access := all.find? (·.name == s)

/-- Every level is read back from its name. -/
theorem ofName?_name (a : Access) : ofName? a.name = some a := by cases a <;> decide

/-- What a Swift dump writes before an access word. -/
def wordHead : String := "source.lang.swift.accessibility."

/-- The level of an access word that is not empty; words that are not known have
    the level `unknown`. -/
def ofWord (word : String) : Access :=
  match Text.dropPrefix wordHead word with
  | "open" | "public" => public_
  | "package" | "internal" => internal
  | "fileprivate" | "private" | "protected" => private_
  | _ => unknown

/-- The level of an access word, or the default if the word is missing. -/
def ofWord? (word : Option String) (default : Option Access) : Option Access :=
  match word with
  | none | some "" => default
  | some w => some (ofWord w)

/-- The level that a stored value says: the default if it does not count as
    present. -/
def ofJson (j : Json) (default : Option Access) : Except Fault (Option Access) :=
  if j.truthy then
    match j with
    | .str w => .ok (some (ofWord w))
    | _ => .error .wrongType
  else .ok default

end Access

end DeclGraph
