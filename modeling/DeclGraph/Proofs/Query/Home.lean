/-
  Names whose declarations all lie in one unit.

  Resolving takes the first declaration of a name, the type map the last one.  Where all of them
  lie in one unit, its home, every part of a graph leads to that unit.

  * `IsHome` says what the home of a type name is;
  * `Built.exists_explain`: what is explained about a name lists its supertypes in their order, each
    as the type map knows it;
  * `homes_agree_build` joins what the parts of a graph and its answers say about a home.
-/
import DeclGraph.Proofs.Ast.Members
import DeclGraph.Proofs.Query.Askable

namespace DeclGraph

/-! ## Members of types -/

/-- The table of members of a unit binds the names that the unit declares as types. -/
theorem mem_keys_members_build {units : List RawUnit} {repoPath generatedAt : Json}
    {unit name : String} {data : UnitData}
    (h : (unit, data) ∈ (build units repoPath generatedAt).1.files.entries) :
    name ∈ data.members.keys ↔ data.Declares [.class_, .struct, .protocol, .enum] name := by
  obtain ⟨u, -, -, hdata⟩ := mem_files_build h
  obtain ⟨d, -, hdata⟩ := bind_eq_ok.1 hdata
  have hkeys := (Ast.extract_members hdata).1
  have hmem : name ∈ data.members.keys ↔ Json.str name ∈ data.members.keys.map Json.str :=
    (List.mem_map_of_injective fun _ _ => Json.str.inj).symm
  rw [hmem, hkeys, List.mem_eraseDups, List.mem_map, UnitData.Declares]

namespace Graph

/-- A unit is the home of a type name: the name is declared as a type, and all declarations of it,
    as a type or as a function, lie in the unit. -/
structure IsHome (g : Graph) (home name : String) : Prop where
  isType : g.DeclaresType name
  only : ∀ unit data, (unit, data) ∈ g.files.entries →
    data.Declares [.class_, .struct, .protocol, .enum, .function] name → unit = home

/-- A listed supertype, as the declarations of its name say. -/
structure Lists (g : Graph) (name : String) (super : Supertype) : Prop where
  name_eq : super.name = .str name
  external_iff : super.isExternal = true ↔ ¬ g.DeclaresType name
  file_eq : ∀ home, g.IsHome home name → super.file = .str home

variable {g : Graph} {home name : String}

/-! ## Homes -/

theorem IsHome.unit_eq (h : g.IsHome home name) {kinds : List SymbolKind}
    (hkinds : kinds ⊆ SymbolKind.indexed) {o : Occurrence} (ho : o ∈ g.declarations kinds name) :
    o.unit = home := by
  obtain ⟨⟨data, hdata, hkind, hs⟩, hname⟩ := mem_declarations.1 ho
  exact h.only o.unit data hdata ⟨o.symbol, mem_inKinds.2 ⟨o.kind, hkinds hkind, hs⟩, hname⟩

/-- The home of a name declares it as a type. -/
theorem IsHome.exists_data (h : g.IsHome home name) : ∃ data, (home, data) ∈ g.files.entries ∧
    data.Declares [.class_, .struct, .protocol, .enum] name := by
  obtain ⟨unit, data, hdata, s, hs, hname⟩ := h.isType
  obtain ⟨kind, hkind, hs⟩ := mem_inKinds.1 hs
  have hindexed := SymbolKind.types_subset_indexed hkind
  obtain rfl := h.only unit data hdata ⟨s, mem_inKinds.2 ⟨kind, hindexed, hs⟩, hname⟩
  exact ⟨data, hdata, s, mem_inKinds.2 ⟨kind, hkind, hs⟩, hname⟩

namespace Built

/-- The first declaration of a name is in its home, … -/
theorem exists_resolve_of_isHome (hg : g.Built) (h : g.IsHome home name) :
    ∃ found, g.resolve name = .ok (some found) ∧ found.file = .str home := by
  obtain ⟨o, ho⟩ := exists_declaration_iff.2 h.isType
  have hne : g.declarations SymbolKind.indexed name ≠ [] := fun hnil =>
    List.ne_nil_of_mem ho (declarations_eq_nil_of_subset SymbolKind.types_subset_indexed hnil)
  obtain ⟨first, hfirst⟩ := Option.isSome_iff_exists.1 (List.isSome_head?.2 hne)
  refine ⟨first.resolved, by rw [hg.resolve_eq, hfirst]; rfl, congrArg Json.str ?_⟩
  exact h.unit_eq (List.Subset.refl _) (List.mem_of_head? hfirst)

/-- … and so is the last one. -/
theorem exists_typeMap_of_isHome (hg : g.Built) (h : g.IsHome home name) :
    ∃ entry, g.typeMap.get? name = some entry ∧ entry.file = .str home := by
  obtain ⟨o, ho⟩ := exists_declaration_iff.2 h.isType
  obtain ⟨last, hlast⟩ :=
    Option.isSome_iff_exists.1 (List.getLast?_isSome.2 (List.ne_nil_of_mem ho))
  have hunit := h.unit_eq SymbolKind.types_subset_indexed (List.mem_of_getLast? hlast)
  refine ⟨last.typeEntry, ?_, congrArg Json.str hunit⟩
  rw [hg.get?_typeMap]
  exact congrArg _ hlast

/-- All edges to a name lead to its home. -/
theorem toFile_of_isHome (hg : g.Built) (h : g.IsHome home name) {e : Edge} (he : e ∈ g.edges)
    (hname : e.toSymbol = .str name) : e.toFile = .str home := by
  obtain ⟨entry, hentry, hfile⟩ := hg.exists_typeMap_of_isHome h
  rw [hg.edges_eq, mem_edges] at he
  obtain ⟨unit, data, -, s, -, he⟩ := he
  obtain ⟨n, -, target, htarget, rfl⟩ := mem_edgesOf.1 he
  obtain rfl : n = name := Json.str.inj hname
  obtain rfl := Option.some.inj (htarget.symm.trans hentry)
  exact hfile

/-! ## Supertypes -/

/-- A supertype is external if no unit declares it; otherwise its file is that of its last
    declaration. -/
theorem lists_supertype (hg : g.Built) (name : String) :
    ∃ super, g.supertype (.str name) = .ok super ∧ g.Lists name super := by
  rw [supertype, Table.at?_str, ok_bind]
  have hdeclares : g.DeclaresType name ↔ (g.typeMap.get? name).isSome := by
    rw [← hg.mem_keys_typeMap, Table.mem_keys_iff]
  cases hentry : g.typeMap.get? name with
  | none =>
    rw [hentry] at hdeclares
    have hnot : ¬ g.DeclaresType name := fun h => Bool.false_ne_true (hdeclares.1 h)
    exact ⟨_, rfl, rfl, ⟨fun _ => hnot, fun _ => rfl⟩, fun home hhome => absurd hhome.isType hnot⟩
  | some entry =>
    rw [hentry] at hdeclares
    have htype : g.DeclaresType name := hdeclares.2 rfl
    refine ⟨_, rfl, rfl, ⟨fun hexternal => ?_, fun hnot => absurd htype hnot⟩, fun home hhome => ?_⟩
    · -- the file of an entry is the id of a unit
      obtain ⟨unit, -, -, s, -, -, rfl⟩ :=
        hg.mem_typeMap ((Table.lookup_eq_some_iff_mem g.typeMap.nodup).1 hentry)
      cases eq_of_beq hexternal
    · obtain ⟨entry', hentry', hfile⟩ := hg.exists_typeMap_of_isHome hhome
      obtain rfl := Option.some.inj (hentry.symm.trans hentry')
      exact hfile

/-- **What is explained about a name lists its supertypes** in their order. -/
theorem exists_explain (hg : g.Built) {found : Resolved}
    (h : g.resolve name = .ok (some found)) :
    ∃ e names, g.explain name = .ok (some e) ∧ e.resolved = found ∧
      found.symbol.inheritedTypes = names.map .str ∧ List.Forall₂ g.Lists names e.inherits := by
  obtain ⟨e?, he⟩ := exists_map_eq_ok.1 (hg.askable.answers (.explain name) trivial)
  have hexplain := he
  rw [explain, h, ok_bind] at he
  obtain ⟨inherits, hinherits, he⟩ := bind_eq_ok.1 he
  obtain ⟨members, -, he⟩ := bind_eq_ok.1 he
  obtain ⟨usages, -, he⟩ := bind_eq_ok.1 he
  obtain rfl := Except.ok.inj he
  obtain ⟨unit, data, hdata, -, hs, -⟩ := hg.resolve_eq_some h
  obtain ⟨names, -, hnames⟩ := ((hg.declared unit data hdata).symbols _ _ hs).inherited_spec
  refine ⟨_, names, hexplain, rfl, hnames, ?_⟩
  rw [hnames, mapM_eq_ok, List.forall₂_map_left_iff] at hinherits
  refine hinherits.imp fun n super hsuper => ?_
  obtain ⟨super', hsuper', hlists⟩ := hg.lists_supertype n
  obtain rfl := Except.ok.inj (hsuper.symm.trans hsuper')
  exact hlists

end Built

end Graph

/-- **All parts of a graph agree on the home of a type name.**  The name resolves to it, the type
    map and all edges to the name lead to it, its table of members answers for the name, and
    whatever inherits from the name is explained with it.  Of the supertypes that are explained
    those are external that no unit declares as a type. -/
theorem homes_agree_build (units : List RawUnit) (repoPath generatedAt : Json) :
    let g := (build units repoPath generatedAt).1
    (∀ home name, g.IsHome home name →
      (∃ found, g.resolve name = .ok (some found) ∧ found.file = .str home) ∧
      (∃ entry, g.typeMap.get? name = some entry ∧ entry.file = .str home) ∧
      (∀ e ∈ g.edges, e.toSymbol = .str name → e.toFile = .str home) ∧
      ∃ data set, (home, data) ∈ g.files.entries ∧ data.members.get? name = some set ∧
        g.members name = .ok set) ∧
    ∀ heir found, g.resolve heir = .ok (some found) →
      ∃ e names, g.explain heir = .ok (some e) ∧ e.resolved = found ∧
        found.symbol.inheritedTypes = names.map .str ∧
        List.Forall₂ g.Lists names e.inherits := by
  intro g
  have hg : g.Built := built_build
  refine ⟨fun home name h => ?_, fun heir found hfound => hg.exists_explain hfound⟩
  obtain ⟨found, hfound, hfile⟩ := hg.exists_resolve_of_isHome h
  refine ⟨⟨found, hfound, hfile⟩, hg.exists_typeMap_of_isHome h,
    fun e he hname => hg.toFile_of_isHome h he hname, ?_⟩
  obtain ⟨data, hdata, hdeclares⟩ := h.exists_data
  obtain ⟨set, hset⟩ := Option.isSome_iff_exists.1
    (Table.mem_keys_iff.1 ((mem_keys_members_build hdata).2 hdeclares))
  refine ⟨data, set, hdata, hset, ?_⟩
  rw [Graph.members, hfound, ok_bind]
  dsimp only
  rw [hfile, Table.at?_str, Graph.get?_files hdata, ok_bind, Option.bind_some, hset]
  rfl

/-- Two units.  The first one declares "Node" as a struct and as a class, and the second one
    extends it and inherits from it. -/
def nodeAndLeaf : List RawUnit :=
  let declare (kind name : String) (supertypes : List String) : Json :=
    .obj [("key.kind", .str kind), ("key.name", .str name),
      ("key.inheritedtypes", .arr (supertypes.map fun n => .obj [("key.name", .str n)]))]
  [{ id := "Node.swift", dialect := .str "swift"
     dump := .obj [("key.substructure", .arr [
       declare "source.lang.swift.decl.struct" "Node" [],
       declare "source.lang.swift.decl.class" "Node" []])] },
   { id := "Leaf.swift", dialect := .str "swift"
     dump := .obj [("key.substructure", .arr [
       declare "source.lang.swift.decl.extension" "Node" ["Hashable"],
       declare "source.lang.swift.decl.class" "Leaf" ["Node", "NSObject"]])] }]

/-- Resolving takes the class and the type map the struct, both of the same unit.  Of the
    supertypes of "Leaf" only "NSObject" is external. -/
theorem homes_agree_nodeAndLeaf :
    let g := (build nodeAndLeaf .null .null).1
    g.IsHome "Node.swift" "Node" ∧
    (∃ found, g.resolve "Node" = .ok (some found) ∧ found.kind = .class_ ∧
      found.file = .str "Node.swift") ∧
    (∃ entry, g.typeMap.get? "Node" = some entry ∧ entry.kind = .struct ∧
      entry.file = .str "Node.swift") ∧
    ∃ e node object, g.explain "Leaf" = .ok (some e) ∧ e.inherits = [node, object] ∧
      node.file = .str "Node.swift" ∧ object.isExternal = true := by
  intro g
  have hhome : g.IsHome "Node.swift" "Node" := by
    refine ⟨?_, fun unit data hdata => ?_⟩
    · have htype : ∃ entry ∈ g.files.entries,
          ∃ s ∈ entry.2.symbols.inKinds SymbolKind.types, s.name = .str "Node" := by
        decide +kernel
      obtain ⟨⟨unit, data⟩, hdata, hs⟩ := htype
      exact ⟨unit, data, hdata, hs⟩
    · have honly : ∀ entry ∈ g.files.entries, ∀ s ∈ entry.2.symbols.inKinds SymbolKind.indexed,
          s.name = .str "Node" → entry.1 = "Node.swift" := by
        decide +kernel
      rintro ⟨s, hs, hname⟩
      exact honly (unit, data) hdata s hs hname
  have hexternal : ¬ g.DeclaresType "NSObject" := by
    have hnone : ∀ entry ∈ g.files.entries, ∀ s ∈ entry.2.symbols.inKinds SymbolKind.types,
        s.name ≠ .str "NSObject" := by
      decide +kernel
    rintro ⟨unit, data, hdata, s, hs, hname⟩
    exact hnone (unit, data) hdata s hs hname
  have hkind : (g.resolve "Node").toOption.join.map Resolved.kind = some .class_ := by
    decide +kernel
  have htype : (g.typeMap.get? "Node").map TypeMapEntry.kind = some .struct := by decide +kernel
  have hleaf : (g.resolve "Leaf").map (Option.map fun r => r.symbol.inheritedTypes) =
      .ok (some (["Node", "NSObject"].map .str)) := by
    decide +kernel
  obtain ⟨hhomes, hexplain⟩ := homes_agree_build nodeAndLeaf .null .null
  obtain ⟨⟨found, hfound, hfile⟩, ⟨entry, hentry, hentryFile⟩, -⟩ := hhomes _ _ hhome
  rw [hfound] at hkind
  rw [hentry] at htype
  refine ⟨hhome, ⟨found, hfound, Option.some.inj hkind, hfile⟩,
    ⟨entry, hentry, Option.some.inj htype, hentryFile⟩, ?_⟩
  obtain ⟨leaf?, hresolve, hleaf⟩ := map_eq_ok.1 hleaf
  obtain ⟨leaf, rfl, hsupertypes⟩ := Option.map_eq_some_iff.1 hleaf
  obtain ⟨e, names, he, -, hnames, hlists⟩ := hexplain "Leaf" leaf hresolve
  obtain rfl : ["Node", "NSObject"] = names :=
    List.map_injective_iff.2 (fun _ _ => Json.str.inj) (hsupertypes.symm.trans hnames)
  obtain ⟨node, rest, hnode, hrest, hinherits⟩ := List.forall₂_cons_left_iff.1 hlists
  obtain ⟨object, last, hobject, hlast, rfl⟩ := List.forall₂_cons_left_iff.1 hrest
  obtain rfl := List.forall₂_nil_left_iff.1 hlast
  exact ⟨e, node, object, he, hinherits, hnode.file_eq _ hhome, hobject.external_iff.2 hexternal⟩

end DeclGraph
