/-
  Resolving names in built graphs.

  * `Built.resolve_eq`: a name resolves to its first declaration;
  * `Built.resolveIndexed_eq`: the index finds it, so that the type map is never asked;
  * `Built.resolve_eq_some`: a name resolves to a symbol of that name in the unit that is
    given as its file.
-/
import DeclGraph.Proofs.Graph.Types
import DeclGraph.Query.Resolve

namespace DeclGraph

/-- What a name resolves to at one of its declarations. -/
def Occurrence.resolved (o : Occurrence) : Resolved := ⟨o.symbol, .str o.unit, o.kind⟩

namespace Graph.Built

variable {g : Graph}

/-! ## The index of names -/

/-- The places of a name in the index are those of its declarations, … -/
theorem places_eq (hg : g.Built) (name : String) :
    (g.indexes.byName.get? name).getD [] =
      (g.declarations SymbolKind.indexed name).map Occurrence.location := by
  rw [hg.indexes_eq]
  exact row_byName g.files name

/-- … so that their units are the ones that declare it. -/
theorem mem_byName (hg : g.Built) {name : String} {l : IndexLocation} :
    l ∈ (g.indexes.byName.get? name).getD [] ↔ ∃ unit data, (unit, data) ∈ g.files.entries ∧
      l.kind ∈ SymbolKind.indexed ∧ l.file = .str unit ∧
      ∃ s ∈ data.symbols.bucket l.kind, s.name = .str name := by
  rw [hg.places_eq, List.mem_map]
  constructor
  · rintro ⟨o, ho, rfl⟩
    obtain ⟨⟨data, hdata, hkind, hs⟩, hname⟩ := mem_declarations.1 ho
    exact ⟨o.unit, data, hdata, hkind, rfl, o.symbol, hs, hname⟩
  · rintro ⟨unit, data, hdata, hkind, hfile, s, hs, hname⟩
    refine ⟨⟨unit, l.kind, s⟩, mem_declarations.2 ⟨⟨data, hdata, hkind, hs⟩, hname⟩, ?_⟩
    rw [Occurrence.location, ← hfile]

/-! ## Resolving -/

/-- The index finds the first declaration of a name. -/
theorem resolveIndexed_eq (hg : g.Built) (name : String) :
    g.resolveIndexed name =
      .ok ((g.declarations SymbolKind.indexed name).head?.map Occurrence.resolved) := by
  rw [resolveIndexed, hg.places_eq]
  cases hdecl : g.declarations SymbolKind.indexed name with
  | nil => rfl
  | cons o rest =>
    have hfirst : (g.declarations SymbolKind.indexed name).head? = some o := by rw [hdecl]; rfl
    obtain ⟨data, hdata, -, hfind⟩ := find?_of_head?_declarations hfirst
    simp only [List.map_cons, Occurrence.location, Table.at?_str, get?_files hdata, ok_bind,
      Option.bind_some, hfind]
    rfl

/-- What the index does not know is not in the type map either. -/
theorem resolveType_eq_none (hg : g.Built) {name : String}
    (h : g.declarations SymbolKind.indexed name = []) : g.resolveType name = none := by
  rw [resolveType, hg.get?_typeMap,
    declarations_eq_nil_of_subset SymbolKind.types_subset_indexed h]
  rfl

/-- **A name resolves to its first declaration.** -/
theorem resolve_eq (hg : g.Built) (name : String) :
    g.resolve name =
      .ok ((g.declarations SymbolKind.indexed name).head?.map Occurrence.resolved) := by
  rw [resolve, hg.resolveIndexed_eq, ok_bind]
  cases hdecl : g.declarations SymbolKind.indexed name with
  | nil => exact congrArg Except.ok (hg.resolveType_eq_none hdecl)
  | cons o rest => rfl

/-- **A name resolves to a symbol of that name** in the unit that is given as its
    file. -/
theorem resolve_eq_some (hg : g.Built) {name : String} {found : Resolved}
    (h : g.resolve name = .ok (some found)) :
    ∃ unit data, (unit, data) ∈ g.files.entries ∧ found.file = .str unit ∧
      found.symbol ∈ data.symbols.bucket found.kind ∧ found.symbol.name = .str name := by
  rw [hg.resolve_eq] at h
  obtain ⟨o, ho, rfl⟩ := Option.map_eq_some_iff.1 (Except.ok.inj h)
  obtain ⟨⟨data, hdata, -, hs⟩, hname⟩ := mem_declarations.1 (List.mem_of_head? ho)
  exact ⟨o.unit, data, hdata, rfl, hs, hname⟩

end Graph.Built

end DeclGraph
