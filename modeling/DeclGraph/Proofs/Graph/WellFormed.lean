/-
  Built graphs are well formed.

  The queries of a graph rely on its parts to fit together: a name that is listed anywhere is
  that of a symbol, and a unit that is named anywhere is there.

  * `defaultAccess_eq_public_iff`: the units whose symbols are public by default are the headers;
  * `Symbol.WellFormed` says what a symbol is, with the node that it is read off;
  * `wellFormed_build`: every graph of raw units is well formed.
-/
import DeclGraph.Proofs.Graph.IndexTables
import DeclGraph.Proofs.Graph.Types
import DeclGraph.Proofs.Path

namespace DeclGraph

/-! ## Headers -/

/-- Whether a unit is a header: the last name of its id is something followed by `.h`. -/
def IsHeader (unit : String) : Prop := ∃ stem, stem ≠ "" ∧ (Path.ofText unit).name = stem ++ ".h"

theorem suffix_eq_h_iff {unit : String} : (Path.ofText unit).suffix = ".h" ↔ IsHeader unit := by
  have hending (n : String) : (Path.splitName n).2 = "." ++ "h" ↔
      ∃ stem, stem ≠ "" ∧ n = stem ++ ("." ++ "h") :=
    Path.splitName_snd_eq_iff (by decide) (by decide)
  exact hending _

/-- **The units whose symbols are public by default are the headers.** -/
theorem defaultAccess_eq_public_iff {unit : String} :
    defaultAccess unit = .public_ ↔ IsHeader unit := by
  rw [← suffix_eq_h_iff, defaultAccess]
  split <;> simp_all

theorem defaultAccess_eq_internal_iff {unit : String} :
    defaultAccess unit = .internal ↔ ¬ IsHeader unit := by
  rw [← suffix_eq_h_iff, defaultAccess]
  split <;> simp_all

/-! ## Access levels -/

/-- The access level of a symbol of a unit, by the access word of its node: a word that is
    not empty counts, and without one the unit does. -/
inductive Access.Stated (unit : String) : Option String → Access → Prop
  | word {w : String} : w ≠ "" → Stated unit (some w) (ofWord w)
  | header {w? : Option String} : w? = none ∨ w? = some "" → IsHeader unit →
      Stated unit w? .public_
  | other {w? : Option String} : w? = none ∨ w? = some "" → ¬ IsHeader unit →
      Stated unit w? .internal

theorem Access.stated_default {unit : String} {w? : Option String}
    (h : w? = none ∨ w? = some "") : Stated unit w? (defaultAccess unit) := by
  by_cases hunit : IsHeader unit
  · rw [defaultAccess_eq_public_iff.2 hunit]
    exact .header h hunit
  · rw [defaultAccess_eq_internal_iff.2 hunit]
    exact .other h hunit

theorem Access.stated_ofWord? (unit : String) (w? : Option String) :
    Stated unit w? ((ofWord? w? (some (defaultAccess unit))).getD (defaultAccess unit)) := by
  unfold ofWord?
  split
  · rw [Option.getD_some]
    exact stated_default (Or.inl rfl)
  · rw [Option.getD_some]
    exact stated_default (Or.inr rfl)
  · rename_i w hne
    rw [Option.getD_some]
    exact .word hne

/-! ## Symbols -/

/-- What a symbol is read off: a node that stands in the dump of its unit and declares it. -/
structure Symbol.ReadOff (u : RawUnit) (s : Symbol) (d : Dialect) (node : Ast.Node) : Prop where
  dialect : Dialect.ofJson u.dialect = .ok d
  stands : ∃ place, Ast.StandsAt d u.dump place node
  declares : ∃ name, Ast.DeclaresKind d.vocabulary node name s.kind ∧
    Ast.symbolOf d.vocabulary u.id node name s.kind = .ok s
  rawKind : ∃ raw, raw ≠ "" ∧ d.vocabulary.rawKind node = some raw ∧ s.rawKind = .str raw
  access : Access.Stated u.id (d.vocabulary.accessWord node) s.access

/-- A symbol in the bucket of a kind of a raw unit. -/
structure Symbol.WellFormed (u : RawUnit) (kind : SymbolKind) (s : Symbol) : Prop where
  name : ∃ name, name ≠ "" ∧ s.name = .str name
  kind_eq : s.kind = kind
  file_eq : s.file = .str u.id
  inherited : ∀ t ∈ s.inheritedTypes, ∃ supertype, supertype ≠ "" ∧ t = .str supertype
  extended : s.extendedType = if kind = .extension then s.name else .null
  node : ∃ d node, s.ReadOff u d node

theorem Symbol.wellFormed_of_extract {u : RawUnit} {data : UnitData} (h : u.extract = .ok data)
    {kind : SymbolKind} {s : Symbol} (hs : s ∈ data.symbols.bucket kind) :
    s.WellFormed u kind := by
  have declared := (RawUnit.declared_extract h).symbols kind s hs
  obtain ⟨d, hdialect, hextract⟩ := bind_eq_ok.1 h
  rw [Ast.bucket_extract hextract, List.mem_filterMap] at hs
  obtain ⟨node, hnode, hs⟩ := hs
  obtain ⟨name, hdeclares, hs⟩ := (Ast.symbolAt?_eq_some d.lawful).1 hs
  have ⟨_, _, tag, htag, hne, _⟩ := hdeclares
  obtain ⟨place, supertypes, -, -, rfl⟩ := Ast.symbolOf_eq_ok.1 hs
  obtain ⟨raw, hraw, hrawne⟩ := d.lawful.rawKind htag hne
  refine ⟨declared.name_spec, declared.kind_eq, declared.file_eq, fun t ht => ?_,
    declared.extended_eq, d, node, hdialect, Ast.exists_standsAt hnode, ⟨name, hdeclares, hs⟩,
    ?_, ?_⟩
  · obtain ⟨names, hnames, heq⟩ := declared.inherited_spec
    rw [heq] at ht
    obtain ⟨supertype, hmem, rfl⟩ := List.mem_map.1 ht
    exact ⟨supertype, hnames supertype hmem, rfl⟩
  · exact ⟨raw, hrawne, hraw, by rw [hraw]; rfl⟩
  · exact Access.stated_ofWord? u.id _

/-! ## Graphs -/

namespace Graph

/-- Whether a unit of a graph has a symbol with a name in the bucket of a kind. -/
def HasSymbol (g : Graph) (unit : String) (kind : SymbolKind) (name : Json) : Prop :=
  ∃ data, (unit, data) ∈ g.files.entries ∧ ∃ s ∈ data.symbols.bucket kind, s.name = name

/-- How the parts of the graph of raw units fit together. -/
structure WellFormed (units : List RawUnit) (g : Graph) : Prop where
  symbols : ∀ unit data, (unit, data) ∈ g.files.entries → ∃ u,
    (unit, u) ∈ (rawTable units).entries ∧ u.id = unit ∧
      ∀ kind, ∀ s ∈ data.symbols.bucket kind, s.WellFormed u kind
  typeMap : ∀ name e, (name, e) ∈ g.typeMap.entries → ∃ unit data,
    (unit, data) ∈ g.files.entries ∧ e.file = .str unit ∧
      e.symbol ∈ data.symbols.bucket e.kind ∧ e.symbol.name = .str name
  byName : ∀ name locations, (name, locations) ∈ g.indexes.byName.entries → locations ≠ [] ∧
    ∀ l ∈ locations, ∃ unit, l.file = .str unit ∧ g.HasSymbol unit l.kind (.str name)
  byKind : ∀ key names, (key, names) ∈ g.indexes.byKind.entries → ∃ kind : SymbolKind,
    key = kind.name ∧ ∀ name ∈ names, ∃ unit, g.HasSymbol unit kind name
  byFile : ∀ unit names, (unit, names) ∈ g.indexes.byFile.entries → unit ∈ g.files.keys ∧
    ∀ name ∈ names, ∃ kind, g.HasSymbol unit kind name
  edges : ∀ e ∈ g.edges, (∃ unit ∈ g.files.keys, e.fromFile = .str unit) ∧
    ∃ unit ∈ g.files.keys, e.toFile = .str unit

variable {g : Graph}

theorem hasSymbol_of_mem {kinds : List SymbolKind} {o : Occurrence}
    (h : o ∈ occurrences g.files kinds) : g.HasSymbol o.unit o.kind o.symbol.name := by
  obtain ⟨data, hdata, -, hs⟩ := mem_occurrences.1 h
  exact ⟨data, hdata, o.symbol, hs, rfl⟩

namespace Built

/-- The type map holds symbols of the units. -/
theorem exists_of_mem_typeMap (hg : g.Built) {name : String} {e : TypeMapEntry}
    (h : (name, e) ∈ g.typeMap.entries) : ∃ unit data, (unit, data) ∈ g.files.entries ∧
      e.file = .str unit ∧ e.symbol ∈ data.symbols.bucket e.kind ∧
      e.symbol.name = .str name := by
  obtain ⟨unit, data, hdata, s, hs, hname, rfl⟩ := hg.mem_typeMap h
  obtain ⟨kind, hkind, hs⟩ := mem_inKinds.1 hs
  have hkind_eq : s.kind = kind := ((hg.declared unit data hdata).symbols kind s hs).kind_eq
  exact ⟨unit, data, hdata, rfl, hkind_eq ▸ hs, hname⟩

/-- The index of names leads to symbols of the units. -/
theorem exists_of_mem_byName (hg : g.Built) {name : String} {l : IndexLocation}
    (h : l ∈ g.indexes.byName.row name) :
    ∃ unit, l.file = .str unit ∧ g.HasSymbol unit l.kind (.str name) := by
  rw [hg.indexes_eq, DeclGraph.row_byName, List.mem_map] at h
  obtain ⟨o, ho, rfl⟩ := h
  obtain ⟨ho, hname⟩ := List.mem_filter.1 ho
  exact ⟨o.unit, rfl, of_decide_eq_true hname ▸ hasSymbol_of_mem ho⟩

/-- The index of kinds lists names of symbols. -/
theorem exists_of_mem_byKind (hg : g.Built) {kind : SymbolKind}
    (hkind : kind ∈ SymbolKind.indexed) {name : Json}
    (h : name ∈ g.indexes.byKind.row kind.name) : ∃ unit, g.HasSymbol unit kind name := by
  rw [hg.indexes_eq, row_byKind_name g.files hkind, List.mem_map] at h
  obtain ⟨o, ho, rfl⟩ := h
  obtain ⟨_, _, hk, _⟩ := mem_occurrences.1 ho
  exact ⟨o.unit, List.mem_singleton.1 hk ▸ hasSymbol_of_mem ho⟩

/-- The index of units lists names of symbols of the unit. -/
theorem exists_of_mem_byFile (hg : g.Built) {unit : String} {name : Json}
    (h : name ∈ g.indexes.byFile.row unit) : ∃ kind, g.HasSymbol unit kind name := by
  rw [hg.indexes_eq, DeclGraph.row_byFile, List.mem_map] at h
  obtain ⟨o, ho, rfl⟩ := h
  obtain ⟨ho, hunit⟩ := List.mem_filter.1 ho
  exact ⟨o.kind, of_decide_eq_true hunit ▸ hasSymbol_of_mem ho⟩

/-- An edge starts in a unit. -/
theorem source_of_mem_edges (hg : g.Built) {e : Edge} (h : e ∈ g.edges) :
    ∃ unit ∈ g.files.keys, e.fromFile = .str unit := by
  rw [hg.edges_eq, mem_edges] at h
  obtain ⟨unit, data, hdata, s, -, he⟩ := h
  obtain ⟨name, -, entry, -, rfl⟩ := mem_edgesOf.1 he
  exact ⟨unit, List.mem_map_of_mem hdata, rfl⟩

end Built

end Graph

/-- **Every graph of raw units is well formed**, whatever their dumps hold. -/
theorem wellFormed_build (units : List RawUnit) (repoPath generatedAt : Json) :
    (build units repoPath generatedAt).1.WellFormed units := by
  have hg : (build units repoPath generatedAt).1.Built := built_build
  constructor
  case symbols =>
    intro unit data hdata
    rw [entries_files_build] at hdata
    obtain ⟨u, hu, hextract⟩ := mem_extracted.1 hdata
    exact ⟨u, hu, (mem_rawTable hu).2, fun kind s hs =>
      Symbol.wellFormed_of_extract hextract hs⟩
  case typeMap => exact fun name e he => hg.exists_of_mem_typeMap he
  case byName =>
    intro name locations h
    have hrow := Table.row_of_mem h
    refine ⟨?_, fun l hl => hg.exists_of_mem_byName (hrow.symm ▸ hl)⟩
    rintro rfl
    rw [hg.indexes_eq] at h
    exact DeclGraph.Indexes.placed_indexes _ name ((Table.lookup_eq_some_iff_mem (Table.nodup _)).2 h)
  case byKind =>
    intro key names h
    have hrow := Table.row_of_mem h
    have hkey := List.mem_map_of_mem (f := Prod.fst) h
    rw [hg.indexes_eq] at hkey
    obtain ⟨kind, hkind, rfl⟩ := DeclGraph.Indexes.kinded_indexes _ key hkey
    exact ⟨kind, rfl, fun name hname => hg.exists_of_mem_byKind hkind (hrow.symm ▸ hname)⟩
  case byFile =>
    intro unit names h
    have hrow := Table.row_of_mem h
    have hkey := List.mem_map_of_mem (f := Prod.fst) h
    rw [hg.indexes_eq] at hkey
    refine ⟨Indexes.keys_byFile _ ▸ hkey, fun name hname =>
      hg.exists_of_mem_byFile (hrow.symm ▸ hname)⟩
  case edges =>
    intro e he
    obtain ⟨name, target, -, -, hfile, hunit⟩ := hg.target_of_mem_edges he
    exact ⟨hg.source_of_mem_edges he, target.unit, hunit, hfile⟩

end DeclGraph
