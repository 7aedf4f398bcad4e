/-
  DeclGraph — symbols and members.

  A symbol is a named declaration of a unit.  What a unit declares is a table
  of symbols, in one bucket per kind, and a table of members, one set per type
  name.

  Symbols also come out of stored documents, and those may hold any value where
  a text is expected; such a value is kept.  So the names in a symbol are JSON
  values, and `null` stands for what is missing.

  * `SymbolTable.ofSymbols` sorts symbols into the buckets of their kinds;
  * `SymbolTable.inKinds` lists the symbols of several kinds;
  * `SymbolTable.find?` is the first symbol of a kind with a name.
-/
import DeclGraph.Symbol.Kind
import DeclGraph.Dialect

namespace DeclGraph

/-- A named declaration of a unit. -/
structure Symbol where
  name : Json
  kind : SymbolKind
  /-- The unit of the declaration. -/
  file : Json
  /-- The names of the types that it inherits from. -/
  inheritedTypes : List Json := []
  access : Access := .internal
  /-- The tag of the node. -/
  rawKind : Json := .null
  /-- The type of a variable or the result type of a function. -/
  typeName : Json := .null
  /-- Where the declaration starts, … -/
  offset : Json := .null
  /-- … and how long it is. -/
  length : Json := .null
  /-- The type that an extension extends. -/
  extendedType : Json := .null
deriving DecidableEq, Inhabited, Repr

/-- A property, method or initializer of a type. -/
structure Member where
  name : Json
  typeName : Json := .null
  access : Option Access := none
deriving DecidableEq, Inhabited, Repr

/-- The members of a type by role. -/
structure MemberSet where
  properties : List Member := []
  methods : List Member := []
  initializers : List Member := []
deriving DecidableEq, Inhabited, Repr

/-- Whether a set holds no member. -/
def MemberSet.isEmpty (m : MemberSet) : Bool :=
  m.properties.isEmpty && m.methods.isEmpty && m.initializers.isEmpty

/-- The symbols of a unit, in one bucket per kind, each in the order of the
    declarations. -/
@[ext] structure SymbolTable where
  bucket : SymbolKind → List Symbol

namespace SymbolTable

instance : Inhabited SymbolTable := ⟨⟨fun _ => []⟩⟩

instance : DecidableEq SymbolTable := fun s t =>
  decidable_of_iff (∀ k ∈ SymbolKind.all, s.bucket k = t.bucket k)
    ⟨fun h => SymbolTable.ext (funext fun k => h k (SymbolKind.mem_all k)), fun h _ _ => h ▸ rfl⟩

/-- Each symbol in the bucket of its kind. -/
def ofSymbols (symbols : List Symbol) : SymbolTable :=
  ⟨fun k => symbols.filter (·.kind = k)⟩

/-- A bucket holds the symbols of its kind in their order. -/
@[simp] theorem bucket_ofSymbols (symbols : List Symbol) (k : SymbolKind) :
    (ofSymbols symbols).bucket k = symbols.filter (·.kind = k) := rfl

/-- The symbols of several kinds, kind after kind. -/
def inKinds (t : SymbolTable) (kinds : List SymbolKind) : List Symbol := kinds.flatMap t.bucket

/-- All symbols, kind after kind. -/
def symbols (t : SymbolTable) : List Symbol := t.inKinds SymbolKind.all

/-- The first symbol of a kind with a name. -/
def find? (t : SymbolTable) (name : String) (kind : SymbolKind) : Option Symbol :=
  (t.bucket kind).find? fun s => s.name.isText name

/-- The number of symbols of a kind. -/
def count (t : SymbolTable) (kind : SymbolKind) : Nat := (t.bucket kind).length

/-- The table with the given buckets. -/
def ofBuckets (classes structs protocols enums extensions functions properties : List Symbol) :
    SymbolTable :=
  ⟨fun
    | .class_ => classes
    | .struct => structs
    | .protocol => protocols
    | .enum => enums
    | .extension => extensions
    | .function => functions
    | .variable_ => properties⟩

/-- Makes the list of every bucket, bucket after bucket, unless one fails. -/
def ofBucketsM {ε : Type} (f : SymbolKind → Except ε (List Symbol)) : Except ε SymbolTable := do
  return ofBuckets (← f .class_) (← f .struct) (← f .protocol) (← f .enum) (← f .extension)
    (← f .function) (← f .variable_)

/-- Changes every symbol and keeps its place, unless a change fails. -/
def mapSymbolsM {ε : Type} (f : Symbol → Except ε Symbol) (t : SymbolTable) :
    Except ε SymbolTable :=
  ofBucketsM fun k => (t.bucket k).mapM f

end SymbolTable

/-- What one unit declares. -/
structure UnitData where
  dialect : Dialect
  symbols : SymbolTable
  /-- The members of each type name. -/
  members : Table MemberSet
deriving DecidableEq, Inhabited

end DeclGraph
