/-
  What a graph is built from.

  * `build_eq`: building one unit after the other leaves the units that can be read, in
    their order;
  * `Graph.Built` says that a graph is derived from its units, and these from
    dumps;
  * `built_build`: building makes such graphs;
  * `mem_typeMap`, `mem_edges`, … say where the entries of the derived parts come
    from.
-/
import DeclGraph.Graph.Build
import DeclGraph.Proofs.Ast.Declared
import DeclGraph.Proofs.Snapshot.Document

namespace DeclGraph

/-! ## Units -/

theorem mem_rawTable {units : List RawUnit} {id : String} {u : RawUnit}
    (h : (id, u) ∈ (rawTable units).entries) : u ∈ units ∧ u.id = id := by
  obtain ⟨u', hu, heq⟩ := List.mem_map.1 (Table.mem_of_mem_ofList h)
  cases heq
  exact ⟨hu, rfl⟩

/-- The units whose dumps can be read, with what they declare. -/
def extracted (raw : Table RawUnit) : List (String × UnitData) :=
  raw.entries.filterMap fun (id, u) => u.extract.toOption.map (id, ·)

/-- The ids of the units whose dumps cannot be read. -/
def failing (raw : Table RawUnit) : List String :=
  raw.entries.filterMap fun (id, u) => if u.extract.toOption.isSome then none else some id

theorem mem_extracted {raw : Table RawUnit} {id : String} {data : UnitData} :
    (id, data) ∈ extracted raw ↔ ∃ u, (id, u) ∈ raw.entries ∧ u.extract = .ok data := by
  rw [extracted, List.mem_filterMap]
  constructor
  · rintro ⟨⟨id', u⟩, hu, h⟩
    obtain ⟨data', hdata, heq⟩ := Option.map_eq_some_iff.1 h
    cases heq
    refine ⟨u, hu, ?_⟩
    cases hx : u.extract with
    | error e => rw [hx] at hdata; cases hdata
    | ok data' => rw [hx] at hdata; cases hdata; rfl
  · rintro ⟨u, hu, h⟩
    exact ⟨(id, u), hu, by simp only [h]; rfl⟩

theorem RawUnit.declared_extract {u : RawUnit} {data : UnitData} (h : u.extract = .ok data) :
    data.Declared u.id := by
  obtain ⟨d, -, h⟩ := bind_eq_ok.1 h
  exact Ast.declared_extract h

/-! ## One unit after the other -/

/-- What reading further units adds to what was read before. -/
theorem foldl_record (entries : List (String × RawUnit)) (r : Reading) :
    entries.foldl (fun r (id, u) => r.record id u.extract) r =
      { units := (entries.filterMap fun (id, u) => u.extract.toOption.map (id, ·)).foldl
          (fun t e => t.insert e.1 e.2) r.units
        errors := r.errors + (entries.filterMap fun (id, u) =>
          if u.extract.toOption.isSome then none else some id).length
        failed := r.failed ++ entries.filterMap fun (id, u) =>
          if u.extract.toOption.isSome then none else some id } := by
  induction entries generalizing r with
  | nil => simp
  | cons entry rest ih =>
    obtain ⟨id, u⟩ := entry
    rw [List.foldl_cons, ih]
    cases hu : u.extract with
    | ok data => simp [Reading.record, Except.toOption, hu]
    | error fault =>
      simp [Reading.record, Except.toOption, hu]
      omega

theorem readAll_eq (raw : Table RawUnit) : readAll raw =
    { units := Table.ofList (extracted raw), errors := (failing raw).length
      failed := failing raw } := by
  rw [readAll, foldl_record]
  simp [extracted, failing, Table.ofList]

theorem map_fst_extracted_sublist (raw : Table RawUnit) :
    ((extracted raw).map Prod.fst).Sublist raw.keys := by
  rw [extracted, Table.keys]
  induction raw.entries with
  | nil => exact List.Sublist.refl _
  | cons entry rest ih =>
    obtain ⟨id, u⟩ := entry
    rw [List.filterMap_cons, List.map_cons]
    dsimp only
    cases u.extract.toOption with
    | none => exact ih.cons _
    | some data => exact ih.cons_cons _

theorem entries_ofList_extracted (raw : Table RawUnit) :
    (Table.ofList (extracted raw)).entries = extracted raw :=
  Table.entries_ofList_of_nodup (raw.nodup.sublist (map_fst_extracted_sublist raw))

/-- Joining the units in the order of the raw units finds them in that order already. -/
theorem joined_extracted (raw : Table RawUnit) :
    joined raw (Table.ofList (extracted raw)) = Table.ofList (extracted raw) := by
  have hget : ∀ e ∈ raw.entries, (Table.ofList (extracted raw)).get? e.1 = e.2.extract.toOption := by
    intro e he
    ext data
    rw [Table.get?, Table.lookup_eq_some_iff_mem (Table.nodup _), entries_ofList_extracted,
      mem_extracted]
    constructor
    · rintro ⟨u, hu, h⟩
      obtain rfl : e.2 = u := by
        have h' := (Table.lookup_eq_some_iff_mem raw.nodup).2 he
        rw [(Table.lookup_eq_some_iff_mem raw.nodup).2 hu] at h'
        exact (Option.some.inj h').symm
      rw [h]
      rfl
    · intro h
      refine ⟨e.2, he, ?_⟩
      cases hx : e.2.extract with
      | error fault => rw [hx] at h; cases h
      | ok data' => rw [hx] at h; cases h; rfl
  rw [joined, Table.keys, List.filterMap_map]
  refine congrArg Table.ofList (List.filterMap_congr fun e he => ?_)
  rw [Function.comp_apply, hget e he]

/-- **Building one unit after the other** leaves the units that can be read, in their
    order, and reports the others. -/
theorem build_eq (units : List RawUnit) (repoPath generatedAt : Json) :
    build units repoPath generatedAt =
      (Graph.ofUnits (Table.ofList (extracted (rawTable units))) repoPath generatedAt,
        { total := (rawTable units).size
          processed := (extracted (rawTable units)).length
          errors := (failing (rawTable units)).length
          failed := failing (rawTable units) }) := by
  simp only [build, readAll_eq, joined_extracted, Prod.mk.injEq, true_and, BuildStats.mk.injEq]
  rw [Graph.unitCount, Graph.ofUnits, Table.size, entries_ofList_extracted]
  simp

/-! ## Built graphs -/

/-- The type map, the edges and the indexes of a graph are those of its units,
    and what its units declare was read off dumps. -/
structure Graph.Built (g : Graph) : Prop where
  derived : g = Graph.ofUnits g.files g.repoPath g.generatedAt
  declared : ∀ unit data, (unit, data) ∈ g.files.entries → data.Declared unit

section

variable {units : List RawUnit} {repoPath generatedAt : Json}

/-- The units of a built graph are those that can be read, in their order. -/
theorem entries_files_build :
    (build units repoPath generatedAt).1.files.entries = extracted (rawTable units) := by
  rw [build_eq]
  exact entries_ofList_extracted (rawTable units)

theorem mem_files_build {unit : String} {data : UnitData}
    (h : (unit, data) ∈ (build units repoPath generatedAt).1.files.entries) :
    ∃ u ∈ units, u.id = unit ∧ u.extract = .ok data := by
  rw [entries_files_build] at h
  obtain ⟨u, hu, hdata⟩ := mem_extracted.1 h
  obtain ⟨hu, hid⟩ := mem_rawTable hu
  exact ⟨u, hu, hid, hdata⟩

theorem built_build : (build units repoPath generatedAt).1.Built where
  derived := rfl
  declared unit data h := by
    obtain ⟨u, -, rfl, hdata⟩ := mem_files_build h
    exact RawUnit.declared_extract hdata

end

/-! ## Derived parts -/

theorem mem_inKinds {t : SymbolTable} {kinds : List SymbolKind} {s : Symbol} :
    s ∈ t.inKinds kinds ↔ ∃ kind ∈ kinds, s ∈ t.bucket kind :=
  List.mem_flatMap

theorem mem_typeDeclarations {units : Table UnitData} {name : String} {e : TypeMapEntry} :
    (name, e) ∈ typeDeclarations units ↔ ∃ unit data, (unit, data) ∈ units.entries ∧
      ∃ s ∈ data.symbols.inKinds SymbolKind.types, s.name = .str name ∧
        e = { file := .str unit, kind := s.kind, symbol := s } := by
  rw [typeDeclarations, List.mem_flatMap]
  constructor
  · rintro ⟨⟨unit, data⟩, hdata, h⟩
    obtain ⟨s, hs, h⟩ := List.mem_filterMap.1 h
    obtain ⟨n, hn, heq⟩ := Option.map_eq_some_iff.1 h
    cases heq
    exact ⟨unit, data, hdata, s, hs, Json.text?_eq_some.1 hn, rfl⟩
  · rintro ⟨unit, data, hdata, s, hs, hn, rfl⟩
    refine ⟨(unit, data), hdata, List.mem_filterMap.2 ⟨s, hs, ?_⟩⟩
    rw [hn]
    rfl

theorem mem_edgesOf {types : Table TypeMapEntry} {unit : String} {s : Symbol} {e : Edge} :
    e ∈ edgesOf types unit s ↔ ∃ name, .str name ∈ s.inheritedTypes ∧
      ∃ entry, types.get? name = some entry ∧
        e = { fromFile := .str unit, toFile := entry.file, fromSymbol := s.name,
              toSymbol := .str name } := by
  rw [edgesOf, List.mem_filterMap]
  constructor
  · rintro ⟨supertype, hsuper, h⟩
    obtain ⟨name, hname, h⟩ := Option.bind_eq_some_iff.1 h
    obtain ⟨entry, hentry, h⟩ := Option.bind_eq_some_iff.1 h
    rw [Json.text?_eq_some] at hname
    cases h
    subst hname
    exact ⟨name, hsuper, entry, hentry, rfl⟩
  · rintro ⟨name, hname, entry, hentry, rfl⟩
    refine ⟨.str name, hname, ?_⟩
    simp only [Json.text?, hentry, Option.bind_eq_bind, Option.bind_some]
    rfl

theorem mem_edges {units : Table UnitData} {types : Table TypeMapEntry} {e : Edge} :
    e ∈ edges units types ↔ ∃ unit data, (unit, data) ∈ units.entries ∧
      ∃ s ∈ data.symbols.inKinds SymbolKind.edgeSources, e ∈ edgesOf types unit s := by
  rw [edges, List.mem_flatMap]
  constructor
  · rintro ⟨⟨unit, data⟩, hdata, h⟩
    exact ⟨unit, data, hdata, List.mem_flatMap.1 h⟩
  · rintro ⟨unit, data, hdata, h⟩
    exact ⟨(unit, data), hdata, List.mem_flatMap.2 h⟩

namespace Graph.Built

variable {g : Graph}

theorem typeMap_eq (hg : g.Built) : g.typeMap = DeclGraph.typeMap g.files := by
  rw [hg.derived]
  rfl

theorem edges_eq (hg : g.Built) : g.edges = DeclGraph.edges g.files g.typeMap := by
  rw [hg.derived]
  rfl

theorem indexes_eq (hg : g.Built) : g.indexes = DeclGraph.indexes g.files := by
  rw [hg.derived]
  rfl

/-- What the type map knows is declared by a unit. -/
theorem mem_typeMap (hg : g.Built) {name : String} {e : TypeMapEntry}
    (h : (name, e) ∈ g.typeMap.entries) : ∃ unit data, (unit, data) ∈ g.files.entries ∧
      ∃ s ∈ data.symbols.inKinds SymbolKind.types, s.name = .str name ∧
        e = { file := .str unit, kind := s.kind, symbol := s } := by
  rw [hg.typeMap_eq] at h
  exact mem_typeDeclarations.1 (Table.mem_of_mem_ofList h)

/-- All symbols of a graph are those of its units. -/
theorem mem_symbols (hg : g.Built) {s : Symbol} (h : s ∈ g.symbols) : ∃ unit data kind,
    (unit, data) ∈ g.files.entries ∧ s ∈ data.symbols.bucket kind := by
  rcases exists_of_mem_symbols h with hunit | ⟨name, e, hentry, rfl⟩
  · exact hunit
  · obtain ⟨unit, data, hdata, s, hs, -, rfl⟩ := hg.mem_typeMap hentry
    obtain ⟨kind, -, h⟩ := mem_inKinds.1 hs
    exact ⟨unit, data, kind, hdata, h⟩

end Graph.Built

end DeclGraph
