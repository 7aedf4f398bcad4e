/-
  DeclGraph — kinds of symbols.

  Every symbol has one of seven kinds, and a table of symbols has one bucket
  for each.

  * `SymbolKind.classify?` reads the kind off the tag of a node: the first kind
    of which a word occurs in the tag, so that a class method counts as a class;
  * `SymbolKind.memberRole?` reads the role that a child plays in its parent,
    where callables come first;
  * the lists at the end say which kinds, and in which order, the parts of a
    graph go through.
-/
import DeclGraph.Fault
import DeclGraph.Text.Basic

namespace DeclGraph

/-- The kind of a declaration. -/
inductive SymbolKind where
  | class_
  | struct
  | protocol
  | enum
  | extension
  | function
  | variable_
deriving DecidableEq, Inhabited, Repr

namespace SymbolKind

/-- All kinds in their order. -/
def all : List SymbolKind := [class_, struct, protocol, enum, extension, function, variable_]

/-- `all` leaves out no kind. -/
theorem mem_all (k : SymbolKind) : k ∈ all := by cases k <;> decide

/-! ## Names -/

/-- The name of a kind. -/
def name : SymbolKind → String
  | class_ => "class"
  | struct => "struct"
  | protocol => "protocol"
  | enum => "enum"
  | extension => "extension"
  | function => "function"
  | variable_ => "variable"

/-- The name of the bucket of a kind. -/
def bucket : SymbolKind → String
  | class_ => "classes"
  | struct => "structs"
  | protocol => "protocols"
  | enum => "enums"
  | extension => "extensions"
  | function => "functions"
  | variable_ => "variables"

/-- The kind of a name. -/
def ofName? (s : String) : Option SymbolKind := all.find? (·.name == s)

/-- The kind whose bucket has the given name. -/
def ofBucket (s : String) : Except Fault SymbolKind :=
  match all.find? (·.bucket == s) with
  | some k => .ok k
  | none => .error (.unknownBucket s)

/-- The kind that a value names. -/
def ofJson (j : Json) : Except Fault SymbolKind :=
  match j.text?.bind ofName? with
  | some k => .ok k
  | none => .error (.unknownKind j)

/-- Every kind is read back from its name. -/
theorem ofName?_name (k : SymbolKind) : ofName? k.name = some k := by cases k <;> decide

/-! ## Classification -/

/-- Words of a tag with the kind that they stand for. -/
def kindWords : List (List String × SymbolKind) :=
  [(["class"], class_), (["struct"], struct), (["protocol"], protocol), (["enum"], enum),
   (["extension"], extension), (["function", "method"], function), (["var"], variable_)]

/-- Words of a tag with the role that they stand for. -/
def memberWords : List (List String × SymbolKind) :=
  [(["function", "method"], function), (["var"], variable_)]

/-- The kind of the first entry of which a word occurs in the tag. -/
def firstMatch (words : List (List String × SymbolKind)) (tag : String) : Option SymbolKind :=
  (words.find? fun entry => entry.1.any (Text.contains tag)).map Prod.snd

/-- The kind that a tag stands for. -/
def classify? (tag : String) : Option SymbolKind := firstMatch kindWords tag

/-- The role of a child: a function for a method or an initializer, a variable
    for a property. -/
def memberRole? (tag : String) : Option SymbolKind := firstMatch memberWords tag

/-! ## Orders -/

/-- Kinds of types, which the type map records. -/
def types : List SymbolKind := [class_, struct, protocol, enum]

/-- Kinds whose supertypes make edges. -/
def edgeSources : List SymbolKind := [class_, struct, enum, extension]

/-- Kinds that the indexes record. -/
def indexed : List SymbolKind := [class_, struct, protocol, enum, function]

theorem types_subset_indexed : types ⊆ indexed := by decide

/-- Kinds that a search without a kind goes through. -/
def searched : List SymbolKind := [class_, struct, protocol, function, enum]

/-- Kinds that an overview shows. -/
def shown : List SymbolKind := [class_, struct, protocol, enum, extension, function]

end SymbolKind

end DeclGraph
