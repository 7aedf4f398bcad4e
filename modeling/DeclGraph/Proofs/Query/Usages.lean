/-
  Usages in built graphs, read off the symbols of the units.

  * `UsedAt` says what the usages of a name are;
  * `usages_build`: these are the usages that a built graph gives for a name that
    resolves.
-/
import DeclGraph.Proofs.Query.Resolve
import DeclGraph.Query.Usages

namespace DeclGraph

/-! ## Occurrences of a name -/

/-- Whether a symbol of a unit has a name as its type or inherits from it. -/
def UnitData.Mentions (data : UnitData) (name : String) : Prop :=
  ∃ kind, ∃ s ∈ data.symbols.bucket kind, s.typeName = .str name ∨ .str name ∈ s.inheritedTypes

/-- Where a name that is declared in the unit `home` is used. -/
structure Graph.UsedAt (g : Graph) (name home : String) (u : Usages) : Prop where
  /-- one inheritor for each time that the name is written as a supertype -/
  inheritedBy : g.DeclaresType name → u.inheritedBy = g.files.entries.flatMap fun entry =>
    (entry.2.symbols.inKinds [.class_, .struct, .enum, .extension]).flatMap fun s =>
      List.replicate (s.inheritedTypes.count (.str name)) ⟨s.name, .str entry.1⟩
  inheritedBy_nil : ¬ g.DeclaresType name → u.inheritedBy = []
  extendedIn : u.extendedIn = g.files.entries.flatMap fun entry =>
    if entry.1 = home then [] else
      ((entry.2.symbols.bucket .extension).filter (·.name = .str name)).map fun s =>
        ⟨entry.1, s.inheritedTypes⟩
  /-- the units come in their order, … -/
  referencedIn : u.referencedIn.Sublist g.files.keys
  /-- … and these are the ones that come -/
  mem_referencedIn : ∀ unit, unit ∈ u.referencedIn ↔ ∃ data, (unit, data) ∈ g.files.entries ∧
    unit ≠ home ∧ (data.Declares [.class_, .struct, .protocol, .enum, .function] name ∨
      data.Mentions name)

theorem Symbol.mentions_iff {s : Symbol} {name : String} :
    s.mentions name ↔ s.typeName = .str name ∨ .str name ∈ s.inheritedTypes := by
  simp only [mentions, Bool.or_eq_true, List.any_eq_true, Json.isText_iff, exists_eq_right]

theorem UnitData.any_mentions_iff {data : UnitData} {name : String} :
    data.symbols.symbols.any (·.mentions name) ↔ data.Mentions name := by
  simp only [List.any_eq_true, SymbolTable.symbols, mem_inKinds, Symbol.mentions_iff, Mentions]
  constructor
  · rintro ⟨s, ⟨kind, -, hs⟩, h⟩
    exact ⟨kind, s, hs, h⟩
  · rintro ⟨kind, s, hs, h⟩
    exact ⟨s, ⟨kind, SymbolKind.mem_all kind, hs⟩, h⟩

/-! ## Supertypes -/

/-- The edges of one symbol to a type that is known. -/
theorem inheritors_edgesOf {types : Table TypeMapEntry} {unit name : String} {s : Symbol}
    {entry : TypeMapEntry} (h : types.get? name = some entry) :
    ((edgesOf types unit s).filter (·.toSymbol.isText name)).map
        (fun e => (⟨e.fromSymbol, e.fromFile⟩ : Inheritor)) =
      List.replicate (s.inheritedTypes.count (.str name)) ⟨s.name, .str unit⟩ := by
  unfold edgesOf
  induction s.inheritedTypes with
  | nil => rfl
  | cons supertype rest ih =>
    rw [List.filterMap_cons]
    by_cases hs : supertype = .str name
    · subst hs
      rw [List.count_cons_self, List.replicate_succ, ← ih]
      simp [Json.text?, h, Json.isText]
    · -- whether it makes an edge or not, the edge is to another name
      rw [List.count_cons_of_ne hs, ← ih]
      split
      · rfl
      · rename_i e he
        obtain ⟨n, hn, he⟩ := Option.bind_eq_some_iff.1 he
        obtain ⟨entry', -, he⟩ := Option.bind_eq_some_iff.1 he
        obtain rfl := Option.some.inj he
        rw [List.filter_cons_of_neg]
        rwa [Json.isText_iff]

namespace Graph

variable {g : Graph}

/-! ## Other units -/

theorem otherUnits_eq (home : String) :
    g.otherUnits (.str home) = g.files.entries.filter fun entry => entry.1 ≠ home := by
  refine List.filter_congr fun entry _ => ?_
  rw [Json.isText, beq_eq_decide, ← decide_not, decide_eq_decide, Json.str.injEq]
  exact not_congr eq_comm

theorem extensionSites_eq (name home : String) :
    g.extensionSites name (.str home) = g.files.entries.flatMap fun entry =>
      if entry.1 = home then [] else
        ((entry.2.symbols.bucket .extension).filter (·.name = .str name)).map fun s =>
          ⟨entry.1, s.inheritedTypes⟩ := by
  rw [extensionSites, otherUnits_eq]
  induction g.files.entries with
  | nil => rfl
  | cons entry rest ih =>
    rw [List.flatMap_cons, ← ih]
    by_cases h : entry.1 = home
    · rw [List.filter_cons_of_neg (by simpa using h), if_pos h, List.nil_append]
    · rw [List.filter_cons_of_pos (by simpa using h), if_neg h, List.flatMap_cons]
      rfl

namespace Built

/-! ## Supertypes in built graphs -/

theorem inheritors_eq (hg : g.Built) {name : String} (h : g.DeclaresType name) :
    g.inheritors name = g.files.entries.flatMap fun entry =>
      (entry.2.symbols.inKinds SymbolKind.edgeSources).flatMap fun s =>
        List.replicate (s.inheritedTypes.count (.str name)) ⟨s.name, .str entry.1⟩ := by
  obtain ⟨entry, hentry⟩ := Option.isSome_iff_exists.1
    (Table.mem_keys_iff.1 (hg.mem_keys_typeMap.2 h))
  rw [inheritors, hg.edges_eq, DeclGraph.edges]
  simp only [List.filter_flatMap, List.map_flatMap, inheritors_edgesOf hentry]

theorem inheritors_eq_nil (hg : g.Built) {name : String} (h : ¬ g.DeclaresType name) :
    g.inheritors name = [] := by
  rw [inheritors, List.map_eq_nil_iff, List.filter_eq_nil_iff]
  intro e he hname
  rw [hg.edges_eq, mem_edges] at he
  obtain ⟨unit, data, -, s, -, he⟩ := he
  obtain ⟨n, -, entry, hentry, rfl⟩ := mem_edgesOf.1 he
  obtain rfl : n = name := Json.str.inj (Json.isText_iff.1 hname)
  have hsome : (g.typeMap.get? n).isSome := Option.isSome_iff_exists.2 ⟨entry, hentry⟩
  exact h (hg.mem_keys_typeMap.1 (Table.mem_keys_iff.2 hsome))

/-! ## Referring units in built graphs -/

theorem otherPlaces_eq (hg : g.Built) (name home : String) :
    g.otherPlaces name (.str home) = .ok
      ((((g.indexes.byName.get? name).getD []).map IndexLocation.file).filter (· ≠ .str home)) := by
  have hplaces : ∀ place ∈ ((g.indexes.byName.get? name).getD []).map IndexLocation.file,
      ∃ unit, place = .str unit := by
    intro place hplace
    obtain ⟨l, hl, rfl⟩ := List.mem_map.1 hplace
    obtain ⟨unit, -, -, -, hfile, -⟩ := hg.mem_byName.1 hl
    exact ⟨unit, hfile⟩
  have hothers : (((g.indexes.byName.get? name).getD []).map IndexLocation.file).filter
      (fun place => !Json.equiv place (.str home)) =
      (((g.indexes.byName.get? name).getD []).map IndexLocation.file).filter (· ≠ .str home) := by
    refine List.filter_congr fun place hplace => ?_
    obtain ⟨unit, rfl⟩ := hplaces place hplace
    rw [Json.equiv_str, beq_eq_decide, ← decide_not, decide_eq_decide, Ne, Json.str.injEq]
  have hany : ((((g.indexes.byName.get? name).getD []).map IndexLocation.file).filter
      (· ≠ .str home)).any Json.isCollection = false := by
    rw [List.any_eq_false]
    intro place hplace
    obtain ⟨unit, rfl⟩ := hplaces place (List.mem_of_mem_filter hplace)
    exact Bool.false_ne_true
  simp only [otherPlaces, hothers, hany, Bool.false_eq_true, if_false]

theorem any_otherPlaces_iff (hg : g.Built) {name home unit : String} {data : UnitData}
    (hdata : (unit, data) ∈ g.files.entries) (hunit : unit ≠ home) :
    ((((g.indexes.byName.get? name).getD []).map IndexLocation.file).filter
      (· ≠ .str home)).any (·.isText unit) ↔ data.Declares SymbolKind.indexed name := by
  rw [List.any_eq_true]
  constructor
  · rintro ⟨place, hplace, hfile⟩
    obtain rfl := Json.isText_iff.1 hfile
    obtain ⟨l, hl, hfile⟩ := List.mem_map.1 (List.mem_of_mem_filter hplace)
    obtain ⟨unit', data', hdata', hkind, hfile', s, hs, hname⟩ := hg.mem_byName.1 hl
    obtain rfl := Json.str.inj (hfile'.symm.trans hfile)
    obtain rfl := data_unique hdata hdata'
    exact ⟨s, mem_inKinds.2 ⟨l.kind, hkind, hs⟩, hname⟩
  · rintro ⟨s, hs, hname⟩
    obtain ⟨kind, hkind, hs⟩ := mem_inKinds.1 hs
    have hl : (⟨.str unit, kind⟩ : IndexLocation) ∈ (g.indexes.byName.get? name).getD [] :=
      hg.mem_byName.2 ⟨unit, data, hdata, hkind, rfl, s, hs, hname⟩
    refine ⟨.str unit, List.mem_filter.2 ⟨List.mem_map_of_mem hl, ?_⟩, Json.isText_iff.2 rfl⟩
    rw [decide_eq_true_eq]
    exact fun h => hunit (Json.str.inj h)

/-- The units that refer to a name: they declare it again, or mention it. -/
theorem referencingUnits_spec (hg : g.Built) (name home : String) :
    ∃ units, g.referencingUnits name (.str home) = .ok units ∧ units.Sublist g.files.keys ∧
      ∀ unit, unit ∈ units ↔ ∃ data, (unit, data) ∈ g.files.entries ∧ unit ≠ home ∧
        (data.Declares SymbolKind.indexed name ∨ data.Mentions name) := by
  unfold referencingUnits
  rw [hg.otherPlaces_eq, ok_bind, otherUnits_eq]
  refine ⟨_, rfl, (List.filter_sublist.trans List.filter_sublist).map _, fun unit => ?_⟩
  rw [List.mem_map]
  constructor
  · rintro ⟨⟨unit, data⟩, h, rfl⟩
    rw [List.mem_filter, List.mem_filter, Bool.or_eq_true, UnitData.any_mentions_iff,
      decide_eq_true_eq] at h
    obtain ⟨⟨hdata, hunit⟩, h⟩ := h
    exact ⟨data, hdata, hunit, h.imp_left (hg.any_otherPlaces_iff hdata hunit).1⟩
  · rintro ⟨data, hdata, hunit, h⟩
    refine ⟨(unit, data), ?_, rfl⟩
    rw [List.mem_filter, List.mem_filter, Bool.or_eq_true, UnitData.any_mentions_iff,
      decide_eq_true_eq]
    exact ⟨⟨hdata, hunit⟩, h.imp_left (hg.any_otherPlaces_iff hdata hunit).2⟩

/-! ## All usages -/

theorem usagesOutside_spec (hg : g.Built) (name home : String) :
    ∃ u, g.usagesOutside name (.str home) = .ok u ∧ g.UsedAt name home u := by
  obtain ⟨units, hunits, hsub, hmem⟩ := hg.referencingUnits_spec name home
  refine ⟨⟨g.inheritors name, g.extensionSites name (.str home), units⟩, ?_, ?_⟩
  · rw [usagesOutside, hunits]
    rfl
  · exact {
      inheritedBy := hg.inheritors_eq
      inheritedBy_nil := hg.inheritors_eq_nil
      extendedIn := extensionSites_eq name home
      referencedIn := hsub
      mem_referencedIn := hmem }

theorem usages_spec (hg : g.Built) {name : String} {found : Resolved}
    (h : g.resolve name = .ok (some found)) :
    ∃ home u, found.file = .str home ∧ g.usages name = .ok (some u) ∧ g.UsedAt name home u := by
  obtain ⟨home, -, -, hfile, -, -⟩ := hg.resolve_eq_some h
  obtain ⟨u, hu, hspec⟩ := hg.usagesOutside_spec name home
  refine ⟨home, u, hfile, ?_, hspec⟩
  rw [usages, h, ok_bind]
  dsimp only
  rw [hfile, hu]
  rfl

end Built

end Graph

/-! ## What the answer leaves out -/

namespace Graph.UsedAt

variable {g : Graph} {name home : String} {u : Usages}

theorem nodup (hu : g.UsedAt name home u) : u.referencedIn.Nodup :=
  g.files.nodup.sublist hu.referencedIn

/-- An inheriting symbol mentions the name, so that its unit refers to it. -/
theorem file_of_inheritor (hu : g.UsedAt name home u) {i : Inheritor} (hi : i ∈ u.inheritedBy) :
    ∃ unit, i.file = .str unit ∧ (unit = home ∨ unit ∈ u.referencedIn) := by
  by_cases htype : g.DeclaresType name
  · rw [hu.inheritedBy htype] at hi
    obtain ⟨⟨unit, data⟩, hdata, hi⟩ := List.mem_flatMap.1 hi
    obtain ⟨s, hs, hi⟩ := List.mem_flatMap.1 hi
    obtain ⟨hcount, rfl⟩ := List.mem_replicate.1 hi
    obtain ⟨kind, -, hs⟩ := mem_inKinds.1 hs
    have hmentions : data.Mentions name :=
      ⟨kind, s, hs, Or.inr (List.count_pos_iff.1 (Nat.pos_of_ne_zero hcount))⟩
    refine ⟨unit, rfl, ?_⟩
    by_cases hunit : unit = home
    · exact Or.inl hunit
    · exact Or.inr ((hu.mem_referencedIn unit).2 ⟨data, hdata, hunit, Or.inr hmentions⟩)
  · rw [hu.inheritedBy_nil htype] at hi
    cases hi

theorem eq_nil_of_any_eq_false (h : u.any = false) :
    u.inheritedBy = [] ∧ u.extendedIn = [] ∧ u.referencedIn = [] := by
  rw [Usages.any, Bool.not_eq_false', Bool.and_eq_true, Bool.and_eq_true, List.isEmpty_iff,
    List.isEmpty_iff, List.isEmpty_iff, and_assoc] at h
  exact h

/-- No usages at all means that the name occurs nowhere. -/
theorem of_any_eq_false (hu : g.UsedAt name home u) (h : u.any = false) {unit : String}
    {data : UnitData} (hdata : (unit, data) ∈ g.files.entries) :
    (unit ≠ home → ¬ data.Declares [.class_, .struct, .protocol, .enum, .function] name ∧
      ¬ data.Mentions name ∧ ∀ s ∈ data.symbols.bucket .extension, s.name ≠ .str name) ∧
    (g.DeclaresType name → ∀ s ∈ data.symbols.inKinds [.class_, .struct, .enum, .extension],
      .str name ∉ s.inheritedTypes) := by
  obtain ⟨hinherited, hextended, hreferenced⟩ := eq_nil_of_any_eq_false h
  constructor
  · intro hunit
    have hnot : ¬ (data.Declares [.class_, .struct, .protocol, .enum, .function] name ∨
        data.Mentions name) := by
      intro hused
      have := (hu.mem_referencedIn unit).2 ⟨data, hdata, hunit, hused⟩
      rw [hreferenced] at this
      cases this
    refine ⟨fun hd => hnot (Or.inl hd), fun hm => hnot (Or.inr hm), fun s hs hname => ?_⟩
    have hsites := List.flatMap_eq_nil_iff.1 (hu.extendedIn.symm.trans hextended) (unit, data) hdata
    rw [if_neg hunit, List.map_eq_nil_iff, List.filter_eq_nil_iff] at hsites
    exact hsites s hs (decide_eq_true hname)
  · intro htype s hs hmem
    have hentries := List.flatMap_eq_nil_iff.1 ((hu.inheritedBy htype).symm.trans hinherited)
      (unit, data) hdata
    have hcount := List.flatMap_eq_nil_iff.1 hentries s hs
    rw [List.replicate_eq_nil_iff, List.count_eq_zero] at hcount
    exact hcount hmem

end Graph.UsedAt

/-- **The usages of a name that resolves in a built graph are those in the symbols
    of its units.** Every unit of an inheriting symbol is the declaring unit or one
    of the referring units, and a name without usages occurs nowhere. -/
theorem usages_build {units : List RawUnit} {repoPath generatedAt : Json} {g : Graph}
    (hg : (build units repoPath generatedAt).1 = g) {name : String} {found : Resolved}
    (h : g.resolve name = .ok (some found)) :
    ∃ home u, found.file = .str home ∧ g.usages name = .ok (some u) ∧ g.UsedAt name home u ∧
      u.referencedIn.Nodup ∧
      (∀ i ∈ u.inheritedBy, ∃ unit, i.file = .str unit ∧ (unit = home ∨ unit ∈ u.referencedIn)) ∧
      (u.any = false → ∀ unit data, (unit, data) ∈ g.files.entries →
        (unit ≠ home → ¬ data.Declares [.class_, .struct, .protocol, .enum, .function] name ∧
          ¬ data.Mentions name ∧ ∀ s ∈ data.symbols.bucket .extension, s.name ≠ .str name) ∧
        (g.DeclaresType name → ∀ s ∈ data.symbols.inKinds [.class_, .struct, .enum, .extension],
          .str name ∉ s.inheritedTypes)) := by
  have hbuilt : g.Built := hg ▸ built_build
  obtain ⟨home, u, hfile, hu, hspec⟩ := hbuilt.usages_spec h
  exact ⟨home, u, hfile, hu, hspec, hspec.nodup, fun i hi => hspec.file_of_inheritor hi,
    fun hany unit data hdata => hspec.of_any_eq_false hany hdata⟩

/-- Two units with a class each, of which the second one inherits from the first. -/
def baseAndDerived : List RawUnit :=
  [{ id := "Base.swift", dialect := .str "swift"
     dump := .obj [("key.kind", .str "source.lang.swift.decl.class"), ("key.name", .str "Base")] },
   { id := "Derived.swift", dialect := .str "swift"
     dump := .obj [("key.kind", .str "source.lang.swift.decl.class"), ("key.name", .str "Derived"),
       ("key.inheritedtypes", .arr [.obj [("key.name", .str "Base")]])] }]

/-- The first one is used by the second one. -/
theorem usages_baseAndDerived : ∃ g found, (build baseAndDerived .null .null).1 = g ∧
    g.resolve "Base" = .ok (some found) ∧ ∃ home u, found.file = .str home ∧
      g.usages "Base" = .ok (some u) ∧ g.UsedAt "Base" home u := by
  have hresolve : (build baseAndDerived .null .null).1.resolve "Base" = .ok (some {
      symbol := {
        name := .str "Base", kind := .class_, file := .str "Base.swift"
        rawKind := .str "source.lang.swift.decl.class" }
      file := .str "Base.swift", kind := .class_ }) := by
    decide +kernel
  obtain ⟨home, u, hfile, hu, hspec, -⟩ := usages_build rfl hresolve
  exact ⟨_, _, rfl, hresolve, home, u, hfile, hu, hspec⟩

end DeclGraph
