/-
  Built graphs of the same units in another order.

  Where a name is declared in one unit only, neither the last declaration, which the type map
  takes, nor the first one, which resolving takes, depends on the order of the units.

  * `Reorders`: two graphs have the same units, in any order;
  * `Reorders.declarations_eq`: the declarations of a name that all lie in one unit are the same;
  * `Reorders.edges_perm`, `byName_perm`, … say what becomes of the derived parts, and
    `resolve_eq`, `members_eq`, `inherits_eq` and `usages_perm` what becomes of the answers;
  * `build_reorder` joins both for the graphs of raw units.
-/
import DeclGraph.Proofs.Query.Locality
import DeclGraph.Proofs.Query.Stats
import DeclGraph.Proofs.Graph.Isolation

namespace DeclGraph

/-! ## Tables in another order -/

theorem Table.get?_eq_of_perm {α : Type*} {s t : Table α} (h : s.entries.Perm t.entries)
    (key : String) : s.get? key = t.get? key := by
  ext value
  rw [get?, get?, lookup_eq_some_iff_mem s.nodup, lookup_eq_some_iff_mem t.nodup, h.mem_iff]

theorem Table.at?_congr {α : Type*} {s t : Table α} (h : ∀ key, s.get? key = t.get? key)
    (key : Json) : s.at? key = t.at? key := by
  rw [at?, at?, funext h]

/-- The same units of distinct ids in another order make the same table in another order. -/
theorem rawTable_perm {units units' : List RawUnit} (hids : (units.map RawUnit.id).Nodup)
    (h : units.Perm units') : (rawTable units).entries.Perm (rawTable units').entries := by
  rw [rawTable_of_nodup hids, rawTable_of_nodup ((h.map RawUnit.id).nodup_iff.1 hids)]
  exact h.map _

/-! ## Usages in another order -/

/-- The three parts of two usages are the same up to order. -/
structure Usages.Perm (u u' : Usages) : Prop where
  inheritedBy : u.inheritedBy.Perm u'.inheritedBy
  extendedIn : u.extendedIn.Perm u'.extendedIn
  referencedIn : u.referencedIn.Perm u'.referencedIn

namespace Graph

/-- All declarations of a name, as symbols of some kinds, lie in one unit, where it may be
    declared more than once. -/
def DeclaredOnce (g : Graph) (kinds : List SymbolKind) (name : String) : Prop :=
  ∀ unit data unit' data', (unit, data) ∈ g.files.entries → (unit', data') ∈ g.files.entries →
    data.Declares kinds name → data'.Declares kinds name → unit = unit'

/-- Two graphs have the same units, in any order. -/
def Reorders (g g' : Graph) : Prop := g.files.entries.Perm g'.files.entries

variable {g g' : Graph} {kinds : List SymbolKind} {name home : String}

/-- It is enough that no two units have declarations of one name. -/
theorem DeclaredOnce.of_names (h : ∀ e ∈ g.files.entries, ∀ e' ∈ g.files.entries,
    ∀ s ∈ e.2.symbols.inKinds kinds, ∀ s' ∈ e'.2.symbols.inKinds kinds,
      s.name = s'.name → e.1 = e'.1) (name : String) : g.DeclaredOnce kinds name := by
  rintro unit data unit' data' hdata hdata' ⟨s, hs, hname⟩ ⟨s', hs', hname'⟩
  exact h (unit, data) hdata (unit', data') hdata' s hs s' hs' (hname.trans hname'.symm)

theorem DeclaredOnce.unit_eq (h : g.DeclaredOnce kinds name) {o o' : Occurrence}
    (ho : o ∈ g.declarations kinds name) (ho' : o' ∈ g.declarations kinds name) :
    o.unit = o'.unit := by
  obtain ⟨⟨data, hdata, hkind, hs⟩, hname⟩ := mem_declarations.1 ho
  obtain ⟨⟨data', hdata', hkind', hs'⟩, hname'⟩ := mem_declarations.1 ho'
  exact h o.unit data o'.unit data' hdata hdata'
    ⟨o.symbol, mem_inKinds.2 ⟨o.kind, hkind, hs⟩, hname⟩
    ⟨o'.symbol, mem_inKinds.2 ⟨o'.kind, hkind', hs'⟩, hname'⟩

namespace Reorders

/-! ## Declarations -/

theorem get?_files_eq (h : g.Reorders g') (unit : String) :
    g.files.get? unit = g'.files.get? unit :=
  Table.get?_eq_of_perm h unit

theorem declarations_perm (h : g.Reorders g') (kinds : List SymbolKind) (name : String) :
    (g.declarations kinds name).Perm (g'.declarations kinds name) :=
  (h.flatMap_right _).filter _

theorem declaresType_iff (h : g.Reorders g') : g.DeclaresType name ↔ g'.DeclaresType name := by
  simp only [DeclaresType, h.mem_iff]

/-- **The declarations of a name that all lie in one unit** are those that this unit has. -/
theorem declarations_eq (h : g.Reorders g') (hone : g.DeclaredOnce kinds name) :
    g.declarations kinds name = g'.declarations kinds name := by
  have hperm := h.declarations_perm kinds name
  cases hdecl : g.declarations kinds name with
  | nil => exact (hdecl ▸ hperm).nil_eq
  | cons first rest =>
    rw [← hdecl]
    have hfirst : first ∈ g.declarations kinds name := hdecl ▸ List.mem_cons_self
    have hunit : ∀ o ∈ g.declarations kinds name, o.unit = first.unit :=
      fun o ho => hone.unit_eq ho hfirst
    calc g.declarations kinds name
        = (g.declarations kinds name).filter (·.unit = first.unit) :=
          (List.filter_eq_self.2 fun o ho => decide_eq_true (hunit o ho)).symm
      _ = ((occurrences g.files kinds).filter (·.unit = first.unit)).filter
            (·.symbol.name = .str name) := List.filter_comm _ _ _
      _ = ((occurrences g'.files kinds).filter (·.unit = first.unit)).filter
            (·.symbol.name = .str name) := by
          rw [filter_unit_occurrences, filter_unit_occurrences, h.get?_files_eq]
      _ = (g'.declarations kinds name).filter (·.unit = first.unit) := List.filter_comm _ _ _
      _ = g'.declarations kinds name :=
          List.filter_eq_self.2 fun o ho => decide_eq_true (hunit o (hperm.mem_iff.2 ho))

/-! ## Derived parts -/

section

variable (h : g.Reorders g') (hg : g.Built) (hg' : g'.Built)
  (htypes : ∀ name, g.DeclaredOnce SymbolKind.types name)

include h hg hg' htypes in
/-- The type map is the same as a mapping, … -/
theorem get?_typeMap_eq (name : String) : g.typeMap.get? name = g'.typeMap.get? name := by
  rw [hg.get?_typeMap, hg'.get?_typeMap, h.declarations_eq (htypes name)]

include h hg hg' htypes in
/-- … so that each symbol makes the same edges. -/
theorem edges_perm : g.edges.Perm g'.edges := by
  have hedges : edgesOf g.typeMap = edgesOf g'.typeMap := by
    funext unit s
    simp only [edgesOf, h.get?_typeMap_eq hg hg' htypes]
  rw [hg.edges_eq, hg'.edges_eq, DeclGraph.edges, DeclGraph.edges, hedges]
  exact h.flatMap_right _

include h hg hg' in
theorem get?_byFile_eq (unit : String) :
    g.indexes.byFile.get? unit = g'.indexes.byFile.get? unit := by
  refine Table.get?_eq_of_perm ?_ unit
  rw [hg.indexes_eq, hg'.indexes_eq, Indexes.entries_byFile, Indexes.entries_byFile]
  exact h.map _

include h hg hg' in
/-- A name is bound in both indexes or in none, to the same places up to order. -/
theorem byName_perm (name : String) :
    Option.Rel List.Perm (g.indexes.byName.get? name) (g'.indexes.byName.get? name) := by
  have hrow : ((g.indexes.byName.get? name).getD []).Perm
      ((g'.indexes.byName.get? name).getD []) := by
    rw [hg.places_eq, hg'.places_eq]
    exact (h.declarations_perm _ name).map _
  have hplaced := Indexes.placed_indexes g.files name
  have hplaced' := Indexes.placed_indexes g'.files name
  rw [← hg.indexes_eq] at hplaced
  rw [← hg'.indexes_eq] at hplaced'
  cases hget : g.indexes.byName.get? name with
  | none =>
    cases hget' : g'.indexes.byName.get? name with
    | none => exact .none
    | some places' =>
      rw [hget, hget'] at hrow
      exact absurd (hget'.trans (congrArg some hrow.nil_eq.symm)) hplaced'
  | some places =>
    cases hget' : g'.indexes.byName.get? name with
    | none =>
      rw [hget, hget'] at hrow
      exact absurd (hget.trans (congrArg some hrow.eq_nil)) hplaced
    | some places' =>
      rw [hget, hget'] at hrow
      exact .some hrow

include h in
theorem counts_eq (largest : Option Int) : (g.stats largest).counts = (g'.stats largest).counts := by
  refine List.map_congr_left fun kind _ => congrArg (Prod.mk kind) ?_
  exact total_eq_of_perm ((h.map Prod.snd).map _)

end

/-! ## Answers -/

section

variable (h : g.Reorders g') (hg : g.Built) (hg' : g'.Built)
  (hone : g.DeclaredOnce SymbolKind.indexed name)

include h hg hg' hone in
theorem resolve_eq : g.resolve name = g'.resolve name := by
  rw [hg.resolve_eq, hg'.resolve_eq, h.declarations_eq hone]

include h hg hg' hone in
theorem members_eq : g.members name = g'.members name := by
  rw [members, members, h.resolve_eq hg hg' hone]
  refine bind_congr fun found => ?_
  cases found with
  | none => rfl
  | some found => exact congrArg (· >>= _) (Table.at?_congr h.get?_files_eq found.file)

include h hg hg' hone in
/-- What is explained about a name has the same supertypes. -/
theorem inherits_eq (htypes : ∀ name, g.DeclaredOnce SymbolKind.types name)
    {e e' : Option Explanation} (he : g.explain name = .ok e) (he' : g'.explain name = .ok e') :
    e.map Explanation.inherits = e'.map Explanation.inherits := by
  have hsupertype : g.supertype = g'.supertype := by
    funext t
    rw [supertype, supertype, Table.at?_congr (h.get?_typeMap_eq hg hg' htypes)]
  rw [explain] at he he'
  obtain ⟨found, hfound, he⟩ := bind_eq_ok.1 he
  obtain ⟨found', hfound', he'⟩ := bind_eq_ok.1 he'
  rw [← h.resolve_eq hg hg' hone, hfound] at hfound'
  obtain rfl := Except.ok.inj hfound'
  cases found with
  | none => rw [← Except.ok.inj he, ← Except.ok.inj he']
  | some found =>
    obtain ⟨inherits, hinherits, he⟩ := bind_eq_ok.1 he
    obtain ⟨inherits', hinherits', he'⟩ := bind_eq_ok.1 he'
    rw [← hsupertype, hinherits] at hinherits'
    obtain rfl := Except.ok.inj hinherits'
    obtain ⟨_, -, he⟩ := bind_eq_ok.1 he
    obtain ⟨_, -, he⟩ := bind_eq_ok.1 he
    obtain ⟨_, -, he'⟩ := bind_eq_ok.1 he'
    obtain ⟨_, -, he'⟩ := bind_eq_ok.1 he'
    rw [← Except.ok.inj he, ← Except.ok.inj he']
    rfl

end

/-- What is used in one of the graphs is used in the other one, unit by unit. -/
theorem usedAt_perm (h : g.Reorders g') {u u' : Usages} (hu : g.UsedAt name home u)
    (hu' : g'.UsedAt name home u') : u.Perm u' where
  inheritedBy := by
    by_cases htype : g.DeclaresType name
    · rw [hu.inheritedBy htype, hu'.inheritedBy (h.declaresType_iff.1 htype)]
      exact h.flatMap_right _
    · rw [hu.inheritedBy_nil htype, hu'.inheritedBy_nil (mt h.declaresType_iff.2 htype)]
  extendedIn := by
    rw [hu.extendedIn, hu'.extendedIn]
    exact h.flatMap_right _
  referencedIn := by
    refine (List.perm_ext_iff_of_nodup hu.nodup hu'.nodup).2 fun unit => ?_
    rw [hu.mem_referencedIn, hu'.mem_referencedIn]
    simp only [h.mem_iff]

theorem usages_perm (h : g.Reorders g') (hg : g.Built) (hg' : g'.Built)
    (hone : g.DeclaredOnce SymbolKind.indexed name) {u u' : Option Usages}
    (hu : g.usages name = .ok u) (hu' : g'.usages name = .ok u') :
    Option.Rel Usages.Perm u u' := by
  have hresolve := h.resolve_eq hg hg' hone
  obtain ⟨found, hfound⟩ := exists_map_eq_ok.1 (hg.askable.answers (.resolve name) trivial)
  cases found with
  | none =>
    rw [usages, hfound] at hu
    rw [usages, ← hresolve, hfound] at hu'
    rw [← Except.ok.inj hu, ← Except.ok.inj hu']
    exact .none
  | some found =>
    obtain ⟨home, v, hfile, hv, hspec⟩ := hg.usages_spec hfound
    obtain ⟨home', v', hfile', hv', hspec'⟩ := hg'.usages_spec (hresolve.symm.trans hfound)
    obtain rfl : home = home' := Json.str.inj (hfile.symm.trans hfile')
    rw [← Except.ok.inj (hv.symm.trans hu), ← Except.ok.inj (hv'.symm.trans hu')]
    exact .some (h.usedAt_perm hspec hspec')

end Reorders

end Graph

/-- Raw units in another order are read in another order. -/
theorem reorders_build {units units' : List RawUnit}
    (h : (rawTable units).entries.Perm (rawTable units').entries)
    (repoPath now repoPath' now' : Json) :
    (build units repoPath now).1.Reorders (build units' repoPath' now').1 := by
  rw [Graph.Reorders, entries_files_build, entries_files_build]
  exact h.filterMap _

/-- **The order of the units does not matter** as long as no two of them declare a type of one
    name.  The graphs of the same raw units in any two orders have the same type map, the same
    edges up to order, the same indexes up to the order of the places of a name, and the same
    counts.  About a name whose declarations all lie in one unit they also say the same, up to
    the order in which they list its usages. -/
theorem build_reorder {units units' : List RawUnit}
    (hperm : (rawTable units).entries.Perm (rawTable units').entries)
    (repoPath now repoPath' now' : Json)
    (htypes : ∀ name, (build units repoPath now).1.DeclaredOnce
      [.class_, .struct, .protocol, .enum] name) :
    let g := (build units repoPath now).1
    let g' := (build units' repoPath' now').1
    (∀ name, g.typeMap.get? name = g'.typeMap.get? name) ∧
      g.edges.Perm g'.edges ∧
      (∀ unit, g.indexes.byFile.get? unit = g'.indexes.byFile.get? unit) ∧
      (∀ name,
        Option.Rel List.Perm (g.indexes.byName.get? name) (g'.indexes.byName.get? name)) ∧
      (∀ largest, (g.stats largest).counts = (g'.stats largest).counts) ∧
      ∀ name, g.DeclaredOnce [.class_, .struct, .protocol, .enum, .function] name →
        (∃ found, g.resolve name = .ok found ∧ g'.resolve name = .ok found) ∧
        (∃ members, g.members name = .ok members ∧ g'.members name = .ok members) ∧
        (∃ e e', g.explain name = .ok e ∧ g'.explain name = .ok e' ∧
          e.map Explanation.inherits = e'.map Explanation.inherits) ∧
        ∃ u u', g.usages name = .ok u ∧ g'.usages name = .ok u' ∧ Option.Rel Usages.Perm u u' := by
  intro g g'
  have h : g.Reorders g' := reorders_build hperm repoPath now repoPath' now'
  have hg : g.Built := built_build
  have hg' : g'.Built := built_build
  refine ⟨h.get?_typeMap_eq hg hg' htypes, h.edges_perm hg hg' htypes, h.get?_byFile_eq hg hg',
    h.byName_perm hg hg', h.counts_eq, fun name hone => ?_⟩
  have hanswers := hg.askable.answers
  have hanswers' := hg'.askable.answers
  obtain ⟨found, hfound⟩ := exists_map_eq_ok.1 (hanswers (.resolve name) trivial)
  obtain ⟨members, hmembers⟩ := exists_map_eq_ok.1 (hanswers (.members name) trivial)
  obtain ⟨e, he⟩ := exists_map_eq_ok.1 (hanswers (.explain name) trivial)
  obtain ⟨e', he'⟩ := exists_map_eq_ok.1 (hanswers' (.explain name) trivial)
  obtain ⟨u, hu⟩ := exists_map_eq_ok.1 (hanswers (.usages name) trivial)
  obtain ⟨u', hu'⟩ := exists_map_eq_ok.1 (hanswers' (.usages name) trivial)
  exact ⟨⟨found, hfound, (h.resolve_eq hg hg' hone).symm.trans hfound⟩,
    ⟨members, hmembers, (h.members_eq hg hg' hone).symm.trans hmembers⟩,
    ⟨e, e', he, he', h.inherits_eq hg hg' hone htypes he he'⟩,
    ⟨u, u', hu, hu', h.usages_perm hg hg' hone hu hu'⟩⟩

/-- A unit that declares a class twice, the second time as one that inherits from "Base". -/
def twins : RawUnit where
  id := "Twins.swift"
  dialect := .str "swift"
  dump := .obj [("key.substructure", .arr [
    .obj [("key.kind", .str "source.lang.swift.decl.class"), ("key.name", .str "Twin")],
    .obj [("key.kind", .str "source.lang.swift.decl.class"), ("key.name", .str "Twin"),
      ("key.inheritedtypes", .arr [.obj [("key.name", .str "Base")]])]])]

/-- The classes that inherit from "Base" come in the order of their units, and the class that
    is declared twice has the same declaration first. -/
theorem build_reorder_twins :
    let g := (build (twins :: baseAndDerived) .null .null).1
    let g' := (build (baseAndDerived ++ [twins]) .null .null).1
    g.usages "Base" ≠ g'.usages "Base" ∧
      (∃ u u', g.usages "Base" = .ok u ∧ g'.usages "Base" = .ok u' ∧
        Option.Rel Usages.Perm u u') ∧
      (g.declarations [.class_] "Twin").length = 2 ∧
      ∃ found, g.resolve "Twin" = .ok found ∧ g'.resolve "Twin" = .ok found := by
  intro g g'
  have hperm : (rawTable (twins :: baseAndDerived)).entries.Perm
      (rawTable (baseAndDerived ++ [twins])).entries :=
    rawTable_perm (by decide) (List.perm_append_singleton twins baseAndDerived).symm
  have htypes (name : String) : g.DeclaredOnce [.class_, .struct, .protocol, .enum] name :=
    .of_names (by decide +kernel) name
  have hindexed (name : String) :
      g.DeclaredOnce [.class_, .struct, .protocol, .enum, .function] name :=
    .of_names (by decide +kernel) name
  have hanswers := (build_reorder hperm .null .null .null .null htypes).2.2.2.2.2
  exact ⟨by decide +kernel, (hanswers "Base" (hindexed "Base")).2.2.2, by decide +kernel,
    (hanswers "Twin" (hindexed "Twin")).1⟩

end DeclGraph
