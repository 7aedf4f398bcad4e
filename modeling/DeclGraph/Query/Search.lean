/-
  DeclGraph — searching for names.

  * `Graph.search` lists the symbols whose names hold a text, in any letter
    case, unit after unit and kind after kind;
  * `collect` stops as soon as enough hits are found, so a limit below one still
    gives one hit.
-/
import DeclGraph.Graph.Basic
import DeclGraph.Text.Case

namespace DeclGraph

/-- A symbol that a search found. -/
structure SearchHit where
  name : Json
  kind : SymbolKind
  /-- The unit of the symbol. -/
  file : String
  inheritedTypes : List Json
deriving DecidableEq, Inhabited, Repr

/-- A hit as an object. -/
def SearchHit.toJson (h : SearchHit) : Json :=
  .obj [("name", h.name), ("kind", .str h.kind.name), ("file", .str h.file),
    ("inheritedTypes", .arr h.inheritedTypes)]

/-- The kinds that a search goes through, as its argument says: those of a
    general search for `null` and `all`, or a single one that is not that of
    variables. -/
def searchKinds (kind : Json) : Except Fault (List SymbolKind) :=
  if kind = .null ∨ kind = .str "all" then .ok SymbolKind.searched
  else do
    match ← SymbolKind.ofJson kind with
    | .variable_ => throw .unsearchable
    | k => return [k]

/-- Whether a search ends once it has found some number of hits. -/
def isEnough (limit : Option Int) (found : Nat) : Bool :=
  match limit with
  | some n => decide (n ≤ found)
  | none => false

/-- The hits among symbols, after `found` others; `needle` is in lower case. -/
def collect (needle : String) (limit : Option Int) :
    (found : Nat) → List (String × Symbol) → Except Fault (List SearchHit)
  | _, [] => .ok []
  | found, (unit, s) :: rest =>
    match s.name with
    | .str name =>
      if Text.contains (Text.toLower name) needle then
        let hit : SearchHit := ⟨s.name, s.kind, unit, s.inheritedTypes⟩
        if isEnough limit (found + 1) then .ok [hit]
        else (collect needle limit (found + 1) rest).map (hit :: ·)
      else collect needle limit found rest
    | _ => .error .wrongType

/-- The symbols of some kinds with their units, in the order of a search. -/
def Graph.searchSpace (g : Graph) (kinds : List SymbolKind) : List (String × Symbol) :=
  g.files.entries.flatMap fun (unit, data) => (data.symbols.inKinds kinds).map (unit, ·)

/-- The symbols whose names hold `query`, at most `limit` of them. -/
def Graph.search (g : Graph) (query : String) (kind : Json) (limit : Option Int) :
    Except Fault (List SearchHit) := do
  collect (Text.toLower query) limit 0 (g.searchSpace (← searchKinds kind))

end DeclGraph
