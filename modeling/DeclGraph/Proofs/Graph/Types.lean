/-
  Type map and edges of built graphs, read off the symbols of the units.

  * `Built.get?_typeMap`: the type map binds a name to its last declaration as a type;
  * `Built.edges_eq_declarations`: every supertype that is declared makes one edge to its
    last declaration;
  * `typed_build` joins both for the graph of raw units.
-/
import DeclGraph.Proofs.Graph.Declarations

namespace DeclGraph

/-! ## The type map -/

/-- The entry of the type map for a declaration of a type. -/
def Occurrence.typeEntry (o : Occurrence) : TypeMapEntry := ⟨.str o.unit, o.kind, o.symbol⟩

theorem typeDeclarations_eq (units : Table UnitData) :
    typeDeclarations units = (occurrences units SymbolKind.types).filterMap fun o =>
      o.symbol.name.text?.map fun n => (n, ⟨.str o.unit, o.symbol.kind, o.symbol⟩) := by
  simp only [typeDeclarations, occurrences, SymbolTable.inKinds, List.filterMap_flatMap,
    List.filterMap_map]
  rfl

/-- The declarations of one name as a type. -/
theorem filter_typeDeclarations (units : Table UnitData) (name : String) :
    (typeDeclarations units).filter (·.1 = name) =
      ((occurrences units SymbolKind.types).filter (·.symbol.name = .str name)).map fun o =>
        (name, ⟨.str o.unit, o.symbol.kind, o.symbol⟩) := by
  rw [typeDeclarations_eq]
  induction occurrences units SymbolKind.types with
  | nil => rfl
  | cons o rest ih =>
    by_cases hname : o.symbol.name = .str name
    · rw [List.filterMap_cons, Json.text?_eq_some.2 hname]
      simp [hname, ih]
    · -- the entry is left out, if there is one at all
      cases htext : o.symbol.name.text? with
      | none => simp [htext, hname, ih]
      | some n =>
        have hn : n ≠ name := fun h => hname (Json.text?_eq_some.1 (h ▸ htext))
        simp [htext, hname, hn, ih]

namespace Graph.Built

variable {g : Graph}

/-- In a built graph a symbol has the kind under which it is listed. -/
theorem kind_eq_of_mem (hg : g.Built) {kinds : List SymbolKind} {o : Occurrence}
    (h : o ∈ occurrences g.files kinds) : o.symbol.kind = o.kind := by
  obtain ⟨data, hdata, -, hs⟩ := mem_occurrences.1 h
  exact ((hg.declared o.unit data hdata).symbols o.kind o.symbol hs).kind_eq

/-- **The type map binds a name to its last declaration as a type.** -/
theorem get?_typeMap (hg : g.Built) (name : String) :
    g.typeMap.get? name =
      (g.declarations SymbolKind.types name).getLast?.map Occurrence.typeEntry := by
  rw [hg.typeMap_eq, DeclGraph.typeMap, Table.get?_ofList_eq_getLast?, filter_typeDeclarations,
    List.getLast?_map, Option.map_map]
  change (g.declarations SymbolKind.types name).getLast?.map _ = _
  cases hlast : (g.declarations SymbolKind.types name).getLast? with
  | none => rfl
  | some o =>
    have ho := List.mem_of_mem_filter (List.mem_of_getLast? hlast)
    simp only [Option.map_some, Function.comp_apply, Occurrence.typeEntry, hg.kind_eq_of_mem ho]

/-- The type map binds the names that are declared as types. -/
theorem mem_keys_typeMap (hg : g.Built) {name : String} :
    name ∈ g.typeMap.keys ↔ g.DeclaresType name := by
  rw [Table.mem_keys_iff, hg.get?_typeMap, Option.isSome_map, List.getLast?_isSome, Ne,
    declarations_eq_nil_iff, not_not]
  rfl

/-! ## Edges -/

/-- **Every supertype that is declared makes one edge, to its last declaration.** -/
theorem edges_eq_declarations (hg : g.Built) :
    g.edges = g.files.entries.flatMap fun entry =>
      (entry.2.symbols.inKinds SymbolKind.edgeSources).flatMap fun s =>
        s.inheritedTypes.filterMap fun supertype => do
          let target ← (g.declarations SymbolKind.types (← supertype.text?)).getLast?
          return ⟨.str entry.1, .str target.unit, s.name, supertype⟩ := by
  rw [hg.edges_eq, DeclGraph.edges]
  refine List.flatMap_congr fun entry _ => List.flatMap_congr fun s _ => ?_
  refine List.filterMap_congr fun supertype _ => ?_
  cases supertype.text? with
  | none => rfl
  | some n =>
    change (g.typeMap.get? n).bind _ = ((g.declarations SymbolKind.types n).getLast?).bind _
    rw [hg.get?_typeMap]
    cases (g.declarations SymbolKind.types n).getLast? <;> rfl

/-- No edge dangles: it leads to the unit of the last declaration of its type. -/
theorem target_of_mem_edges (hg : g.Built) {e : Edge} (he : e ∈ g.edges) :
    ∃ name target, e.toSymbol = .str name ∧
      (g.declarations SymbolKind.types name).getLast? = some target ∧
      e.toFile = .str target.unit ∧ target.unit ∈ g.files.keys := by
  rw [hg.edges_eq, mem_edges] at he
  obtain ⟨unit, data, -, s, -, he⟩ := he
  obtain ⟨name, -, entry, hentry, rfl⟩ := mem_edgesOf.1 he
  rw [hg.get?_typeMap] at hentry
  obtain ⟨target, htarget, rfl⟩ := Option.map_eq_some_iff.1 hentry
  obtain ⟨⟨data', hdata', -⟩, -⟩ := mem_declarations.1 (List.mem_of_getLast? htarget)
  exact ⟨name, target, rfl, htarget, rfl, List.mem_map_of_mem hdata'⟩

end Graph.Built

/-- **Type map and edges of a built graph are determined by the declarations** in the units
    that can be read.  A name is bound to its last declaration as a type, and every supertype
    that is so bound makes one edge, to the unit of that last declaration. -/
theorem typed_build (units : List RawUnit) (repoPath generatedAt : Json) :
    let g := (build units repoPath generatedAt).1
    (∀ unit data, (unit, data) ∈ g.files.entries ↔
      ∃ u, (unit, u) ∈ (rawTable units).entries ∧ u.extract = .ok data) ∧
    (∀ name, name ∈ g.typeMap.keys ↔ ∃ unit data, (unit, data) ∈ g.files.entries ∧
      data.Declares [.class_, .struct, .protocol, .enum] name) ∧
    (∀ name, g.typeMap.get? name =
      (g.declarations [.class_, .struct, .protocol, .enum] name).getLast?.map fun o =>
        ⟨.str o.unit, o.kind, o.symbol⟩) ∧
    (g.edges = g.files.entries.flatMap fun entry =>
      (entry.2.symbols.inKinds [.class_, .struct, .enum, .extension]).flatMap fun s =>
        s.inheritedTypes.filterMap fun supertype => do
          let target ←
            (g.declarations [.class_, .struct, .protocol, .enum] (← supertype.text?)).getLast?
          return ⟨.str entry.1, .str target.unit, s.name, supertype⟩) ∧
    ∀ e ∈ g.edges, ∃ name target, e.toSymbol = .str name ∧
      (g.declarations [.class_, .struct, .protocol, .enum] name).getLast? = some target ∧
      e.toFile = .str target.unit ∧ target.unit ∈ g.files.keys := by
  intro g
  have hg : g.Built := built_build
  refine ⟨fun unit data => ?_, fun name => hg.mem_keys_typeMap, hg.get?_typeMap,
    hg.edges_eq_declarations, fun e he => hg.target_of_mem_edges he⟩
  rw [entries_files_build]
  exact mem_extracted

end DeclGraph
