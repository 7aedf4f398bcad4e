/-
  The symbols of the units of a graph, in one list.

  Type map, indexes and questions go through the symbols of some kinds in the order of
  the units, of the kinds, and of the symbols of a unit.  `occurrences` is this list, and
  `Graph.declarations` are the symbols of one name in it.

  * `exists_declaration_iff`: a name has a declaration if a unit declares it;
  * `find?_of_head?_declarations`: the first declaration of a name is the symbol that its
    unit finds;
  * `unit_head?_declarations`: its unit does not depend on the order of the kinds;
  * `row_byName`, `row_byKind_name` and `row_byFile`: the indexes list the declarations of a
    name, of a kind and of a unit.
-/
import DeclGraph.Proofs.Graph.Build
import DeclGraph.Proofs.Graph.Indexes
import Mathlib.Data.List.Perm.Basic

namespace DeclGraph

/-! ## Symbols with their places -/

/-- A symbol with the unit and the kind under which it is listed. -/
structure Occurrence where
  unit : String
  kind : SymbolKind
  symbol : Symbol

/-- The place of a symbol in the index. -/
def Occurrence.location (o : Occurrence) : IndexLocation := ⟨.str o.unit, o.kind⟩

/-- The symbols of some kinds in units. -/
def occurrences (units : Table UnitData) (kinds : List SymbolKind) : List Occurrence :=
  units.entries.flatMap fun entry => kinds.flatMap fun kind =>
    (entry.2.symbols.bucket kind).map fun s => ⟨entry.1, kind, s⟩

theorem mem_occurrences {units : Table UnitData} {kinds : List SymbolKind} {o : Occurrence} :
    o ∈ occurrences units kinds ↔ ∃ data, (o.unit, data) ∈ units.entries ∧ o.kind ∈ kinds ∧
      o.symbol ∈ data.symbols.bucket o.kind := by
  simp only [occurrences, List.mem_flatMap, List.mem_map]
  constructor
  · rintro ⟨⟨unit, data⟩, hdata, kind, hkind, s, hs, rfl⟩
    exact ⟨data, hdata, hkind, hs⟩
  · rintro ⟨data, hdata, hkind, hs⟩
    exact ⟨(o.unit, data), hdata, o.kind, hkind, o.symbol, hs, rfl⟩

/-- What all occurrences in a row give is what the units give in a row. -/
theorem flatMap_occurrences {β : Type*} (units : Table UnitData) (kinds : List SymbolKind)
    (f : Occurrence → List β) :
    (occurrences units kinds).flatMap f = units.entries.flatMap fun entry =>
      kinds.flatMap fun kind => (entry.2.symbols.bucket kind).flatMap fun s =>
        f ⟨entry.1, kind, s⟩ := by
  simp only [occurrences, List.flatMap_assoc, List.flatMap_map]

/-- The occurrences of one unit. -/
theorem filter_unit_occurrences (units : Table UnitData) (kinds : List SymbolKind)
    (unit : String) : (occurrences units kinds).filter (·.unit = unit) =
      ((units.get? unit).map fun data => kinds.flatMap fun kind =>
        (data.symbols.bucket kind).map fun s => ⟨unit, kind, s⟩).getD [] := by
  refine Table.filter_flatMap_entries units (fun entry _ o ho => ?_) unit
  obtain ⟨kind, -, ho⟩ := List.mem_flatMap.1 ho
  obtain ⟨s, -, rfl⟩ := List.mem_map.1 ho
  rfl

/-- The occurrences of one kind. -/
theorem filter_kind_occurrences (units : Table UnitData) {kinds : List SymbolKind}
    (hnodup : kinds.Nodup) {kind : SymbolKind} (h : kind ∈ kinds) :
    (occurrences units kinds).filter (·.kind = kind) = occurrences units [kind] := by
  simp only [occurrences, List.filter_flatMap, List.filter_map, Function.comp_def,
    List.flatMap_singleton]
  refine List.flatMap_congr fun entry _ => ?_
  induction kinds with
  | nil => cases h
  | cons first rest ih =>
    obtain ⟨hfirst, hrest⟩ := List.nodup_cons.1 hnodup
    rw [List.flatMap_cons]
    by_cases hk : first = kind
    · -- the kind does not come again
      subst hk
      have hnil : (rest.flatMap fun k => ((entry.2.symbols.bucket k).filter fun _ =>
          decide (k = first)).map fun s => (⟨entry.1, k, s⟩ : Occurrence)) = [] := by
        refine List.flatMap_eq_nil_iff.2 fun k hmem => ?_
        have hne : k ≠ first := fun e => hfirst (e ▸ hmem)
        simp [hne]
      rw [hnil]
      simp
    · have hmem : kind ∈ rest := (List.mem_cons.1 h).resolve_left (Ne.symm hk)
      rw [ih hrest hmem]
      simp [hk]

theorem map_occurrences {β : Type*} (units : Table UnitData) (kinds : List SymbolKind)
    (f : Occurrence → β) :
    (occurrences units kinds).map f = units.entries.flatMap fun entry =>
      kinds.flatMap fun kind => (entry.2.symbols.bucket kind).map fun s =>
        f ⟨entry.1, kind, s⟩ := by
  simp only [occurrences, List.map_flatMap, List.map_map, Function.comp_def]

/-- The order of the kinds changes the order of the occurrences only. -/
theorem occurrences_perm (units : Table UnitData) {kinds kinds' : List SymbolKind}
    (h : kinds.Perm kinds') : (occurrences units kinds).Perm (occurrences units kinds') :=
  List.Perm.flatMap_left _ fun _ _ => h.flatMap_right _

/-! ## Names -/

/-- Whether a unit declares a name as a symbol of one of some kinds. -/
def UnitData.Declares (data : UnitData) (kinds : List SymbolKind) (name : String) : Prop :=
  ∃ s ∈ data.symbols.inKinds kinds, s.name = .str name

namespace Graph

variable {g : Graph} {kinds kinds' : List SymbolKind} {name : String} {o : Occurrence}

/-- Whether a unit of a graph declares a name as a type. -/
def DeclaresType (g : Graph) (name : String) : Prop :=
  ∃ unit data, (unit, data) ∈ g.files.entries ∧
    data.Declares [.class_, .struct, .protocol, .enum] name

theorem get?_files {unit : String} {data : UnitData} (h : (unit, data) ∈ g.files.entries) :
    g.files.get? unit = some data :=
  (Table.lookup_eq_some_iff_mem g.files.nodup).2 h

theorem data_unique {unit : String} {data data' : UnitData} (h : (unit, data) ∈ g.files.entries)
    (h' : (unit, data') ∈ g.files.entries) : data = data' :=
  Option.some.inj ((get?_files h).symm.trans (get?_files h'))

/-- The declarations of a name in a graph, as symbols of some kinds. -/
def declarations (g : Graph) (kinds : List SymbolKind) (name : String) : List Occurrence :=
  (occurrences g.files kinds).filter (·.symbol.name = .str name)

theorem mem_declarations : o ∈ g.declarations kinds name ↔
    (∃ data, (o.unit, data) ∈ g.files.entries ∧ o.kind ∈ kinds ∧
      o.symbol ∈ data.symbols.bucket o.kind) ∧ o.symbol.name = .str name := by
  rw [declarations, List.mem_filter, mem_occurrences, decide_eq_true_eq]

theorem exists_declaration_iff : (∃ o, o ∈ g.declarations kinds name) ↔
    ∃ unit data, (unit, data) ∈ g.files.entries ∧ data.Declares kinds name := by
  simp only [mem_declarations, UnitData.Declares, mem_inKinds]
  constructor
  · rintro ⟨o, ⟨data, hdata, hkind, hs⟩, hname⟩
    exact ⟨o.unit, data, hdata, o.symbol, ⟨o.kind, hkind, hs⟩, hname⟩
  · rintro ⟨unit, data, hdata, s, ⟨kind, hkind, hs⟩, hname⟩
    exact ⟨⟨unit, kind, s⟩, ⟨data, hdata, hkind, hs⟩, hname⟩

theorem declarations_eq_nil_iff : g.declarations kinds name = [] ↔
    ¬ ∃ unit data, (unit, data) ∈ g.files.entries ∧ data.Declares kinds name := by
  rw [← exists_declaration_iff, List.eq_nil_iff_forall_not_mem, not_exists]

theorem declarations_eq_nil_of_subset (h : kinds ⊆ kinds')
    (hnil : g.declarations kinds' name = []) : g.declarations kinds name = [] := by
  rw [List.eq_nil_iff_forall_not_mem] at hnil ⊢
  intro o ho
  obtain ⟨⟨data, hdata, hkind, hs⟩, hname⟩ := mem_declarations.1 ho
  exact hnil o (mem_declarations.2 ⟨⟨data, hdata, h hkind, hs⟩, hname⟩)

/-! ## The first declaration -/

theorem head?_declarations (g : Graph) (kinds : List SymbolKind) (name : String) :
    (g.declarations kinds name).head? = g.files.entries.findSome? fun entry =>
      kinds.findSome? fun kind =>
        (entry.2.symbols.find? name kind).map fun s => ⟨entry.1, kind, s⟩ := by
  simp only [declarations, occurrences, List.head?_filter, List.find?_flatMap, List.find?_map,
    SymbolTable.find?, Json.isText, Function.comp_def, beq_eq_decide]

/-- The first declaration of a name is the symbol that its unit finds under its kind. -/
theorem find?_of_head?_declarations (h : (g.declarations kinds name).head? = some o) :
    ∃ data, (o.unit, data) ∈ g.files.entries ∧ o.kind ∈ kinds ∧
      data.symbols.find? name o.kind = some o.symbol := by
  rw [head?_declarations] at h
  obtain ⟨⟨unit, data⟩, hdata, h⟩ := List.exists_of_findSome?_eq_some h
  obtain ⟨kind, hkind, h⟩ := List.exists_of_findSome?_eq_some h
  obtain ⟨s, hs, rfl⟩ := Option.map_eq_some_iff.1 h
  exact ⟨data, hdata, hkind, hs⟩

/-- The first declaration of a name is in the first unit that declares the name. -/
theorem unit_head?_declarations (g : Graph) (kinds : List SymbolKind) (name : String) :
    (g.declarations kinds name).head?.map Occurrence.unit =
      (g.files.entries.find? fun entry =>
        (entry.2.symbols.inKinds kinds).any (·.name = .str name)).map Prod.fst := by
  rw [declarations, occurrences]
  induction g.files.entries with
  | nil => rfl
  | cons entry rest ih =>
    rw [List.flatMap_cons, List.filter_append, List.head?_append, List.find?_cons]
    cases hfirst : ((kinds.flatMap fun kind => (entry.2.symbols.bucket kind).map fun s =>
        (⟨entry.1, kind, s⟩ : Occurrence)).filter (·.symbol.name = .str name)).head? with
    | some o =>
      obtain ⟨ho, hname⟩ := List.mem_filter.1 (List.mem_of_head? hfirst)
      obtain ⟨kind, hkind, ho⟩ := List.mem_flatMap.1 ho
      obtain ⟨s, hs, rfl⟩ := List.mem_map.1 ho
      rw [List.any_eq_true.2 ⟨s, mem_inKinds.2 ⟨kind, hkind, hs⟩, hname⟩]
      rfl
    | none =>
      rw [List.head?_eq_none_iff, List.filter_eq_nil_iff] at hfirst
      have hany : (entry.2.symbols.inKinds kinds).any (·.name = .str name) = false := by
        rw [List.any_eq_false]
        intro s hs
        obtain ⟨kind, hkind, hs⟩ := mem_inKinds.1 hs
        exact hfirst ⟨entry.1, kind, s⟩
          (List.mem_flatMap.2 ⟨kind, hkind, List.mem_map_of_mem hs⟩)
      rw [hany]
      exact ih

theorem unit_head?_declarations_of_perm (h : kinds.Perm kinds') :
    (g.declarations kinds name).head?.map Occurrence.unit =
      (g.declarations kinds' name).head?.map Occurrence.unit := by
  simp only [unit_head?_declarations, SymbolTable.inKinds, (h.flatMap_right _).any_eq]

end Graph

/-! ## The indexes -/

/-- What a list of an index holds, as the declarations that belong to the list. -/
theorem Indexes.rows_eq_filter {β : Type} (units : Table UnitData) (p : Occurrence → Prop)
    [DecidablePred p] (f : Occurrence → β) :
    rows units (fun unit kind s => if p ⟨unit, kind, s⟩ then [f ⟨unit, kind, s⟩] else []) =
      ((occurrences units SymbolKind.indexed).filter p).map f := by
  refine (flatMap_occurrences units SymbolKind.indexed fun o =>
    if p o then [f o] else []).symm.trans ?_
  induction occurrences units SymbolKind.indexed with
  | nil => rfl
  | cons o rest ih =>
    rw [List.flatMap_cons, ih, List.filter_cons]
    split <;> simp_all

/-- **The index lists the declarations of a name.** -/
theorem row_byName (units : Table UnitData) (name : String) :
    (indexes units).byName.row name =
      ((occurrences units SymbolKind.indexed).filter (·.symbol.name = .str name)).map
        Occurrence.location := by
  rw [Indexes.row_byName]
  exact Indexes.rows_eq_filter units (·.symbol.name = .str name) Occurrence.location

/-- **The index lists the names of the declarations of a kind.** -/
theorem row_byKind_name (units : Table UnitData) {kind : SymbolKind}
    (h : kind ∈ SymbolKind.indexed) : (indexes units).byKind.row kind.name =
      (occurrences units [kind]).map (·.symbol.name) := by
  have hname (k : SymbolKind) : kind.name = k.name ↔ k = kind := by
    cases kind <;> cases k <;> decide
  rw [Indexes.row_byKind, ← filter_kind_occurrences units (by decide) h]
  simp only [hname]
  exact Indexes.rows_eq_filter units (·.kind = kind) (·.symbol.name)

/-- **The index lists the names of the declarations of a unit.** -/
theorem row_byFile (units : Table UnitData) (key : String) :
    (indexes units).byFile.row key =
      ((occurrences units SymbolKind.indexed).filter (·.unit = key)).map (·.symbol.name) := by
  rw [Indexes.row_byFile]
  simp only [eq_comm (a := key)]
  exact Indexes.rows_eq_filter units (·.unit = key) (·.symbol.name)

end DeclGraph
