/-
  Searching in built graphs.

  * `Built.search_eq`: a search without a limit lists the symbols whose names hold the text;
  * `Built.unit_find?_search`: the first hit of a name is in the unit that the name resolves
    to;
  * `Built.places_perm`: the index of names lists the symbols that a search goes through.

  `resolve_search_build` joins what resolving and searching say about the declarations.
-/
import DeclGraph.Proofs.Query.Resolve
import DeclGraph.Proofs.Text.Basic
import DeclGraph.Query.Search

namespace DeclGraph

/-! ## Hits -/

/-- Whether the name of a symbol in lower case holds a text. -/
def Symbol.holds (s : Symbol) (needle : String) : Bool :=
  match s.name with
  | .str name => Text.contains (Text.toLower name) needle
  | _ => false

/-- A symbol as a hit of a search. -/
def Occurrence.hit (o : Occurrence) : SearchHit :=
  ⟨o.symbol.name, o.kind, o.unit, o.symbol.inheritedTypes⟩

/-- The name of a symbol with its place. -/
def Occurrence.entry (o : Occurrence) : Json × IndexLocation := (o.symbol.name, o.location)

/-- The name of a hit with its place. -/
def SearchHit.entry (h : SearchHit) : Json × IndexLocation := (h.name, ⟨.str h.file, h.kind⟩)

/-- The names in the index with their places. -/
def Graph.places (g : Graph) : List (String × IndexLocation) :=
  g.indexes.byName.entries.flatMap fun row => row.2.map (row.1, ·)

/-- A search for one kind goes through that kind only. -/
theorem eq_of_searchKinds_name {kind : SymbolKind} {kinds : List SymbolKind}
    (h : searchKinds (.str kind.name) = .ok kinds) : kinds = [kind] := by
  cases kind with
  | variable_ => cases h
  | _ => exact (Except.ok.inj h).symm

/-- Every hit is one of the symbols that are gone through. -/
theorem mem_of_collect {needle : String} {limit : Option Int} {found : Nat}
    {space : List (String × Symbol)} {hits : List SearchHit} {hit : SearchHit}
    (h : collect needle limit found space = .ok hits) (hhit : hit ∈ hits) :
    ∃ p ∈ space, hit = ⟨p.2.name, p.2.kind, p.1, p.2.inheritedTypes⟩ := by
  induction space generalizing found hits with
  | nil =>
    obtain rfl := Except.ok.inj h
    cases hhit
  | cons p rest ih =>
    have later {found : Nat} {hits : List SearchHit} (h : collect needle limit found rest = .ok hits)
        (hhit : hit ∈ hits) : ∃ q ∈ p :: rest,
          hit = ⟨q.2.name, q.2.kind, q.1, q.2.inheritedTypes⟩ := by
      obtain ⟨q, hq, heq⟩ := ih h hhit
      exact ⟨q, List.mem_cons_of_mem p hq, heq⟩
    obtain ⟨unit, s⟩ := p
    rw [collect] at h
    split at h
    · split at h
      · dsimp only at h
        split at h
        · obtain rfl := Except.ok.inj h
          exact ⟨(unit, s), List.mem_cons_self, List.mem_singleton.1 hhit⟩
        · obtain ⟨hits', hrest, rfl⟩ := map_eq_ok.1 h
          rcases List.mem_cons.1 hhit with rfl | hhit
          · exact ⟨(unit, s), List.mem_cons_self, rfl⟩
          · exact later hrest hhit
      · exact later h hhit
    · cases h

/-- A collection without a limit goes through all symbols. -/
theorem collect_unlimited (needle : String) (found : Nat) {space : List (String × Symbol)}
    (h : ∀ p ∈ space, ∃ name, p.2.name = .str name) :
    collect needle none found space = .ok ((space.filter (·.2.holds needle)).map fun p =>
      ⟨p.2.name, p.2.kind, p.1, p.2.inheritedTypes⟩) := by
  induction space generalizing found with
  | nil => rfl
  | cons p rest ih =>
    obtain ⟨unit, s⟩ := p
    obtain ⟨name, hname⟩ := h (unit, s) List.mem_cons_self
    have ih := fun found => ih found fun p hp => h p (List.mem_cons_of_mem _ hp)
    dsimp only at hname
    have hholds : Text.contains (Text.toLower name) needle = s.holds needle := by
      rw [Symbol.holds, hname]
    rw [collect, hname]
    simp only [hholds, isEnough, ih, map_ok, List.filter_cons, Bool.false_eq_true, if_false]
    cases s.holds needle with
    | true => rw [if_pos rfl, if_pos rfl, List.map_cons, hname]
    | false => rfl

namespace Graph

variable {g : Graph}

theorem searchSpace_eq (g : Graph) (kinds : List SymbolKind) :
    g.searchSpace kinds = (occurrences g.files kinds).map fun o => (o.unit, o.symbol) := by
  rw [map_occurrences, searchSpace]
  simp only [SymbolTable.inKinds, List.map_flatMap]

namespace Built

theorem name_of_mem (hg : g.Built) {kinds : List SymbolKind} {o : Occurrence}
    (h : o ∈ occurrences g.files kinds) : ∃ name, o.symbol.name = .str name := by
  obtain ⟨data, hdata, -, hs⟩ := mem_occurrences.1 h
  obtain ⟨name, -, hname⟩ := ((hg.declared o.unit data hdata).symbols o.kind o.symbol hs).name_spec
  exact ⟨name, hname⟩

/-- **A search without a limit lists the symbols whose names hold the text.** -/
theorem search_eq (hg : g.Built) (query : String) {kind : Json} {kinds : List SymbolKind}
    (hkind : searchKinds kind = .ok kinds) :
    g.search query kind none = .ok (((occurrences g.files kinds).filter
      (·.symbol.holds (Text.toLower query))).map Occurrence.hit) := by
  have hnames : ∀ p ∈ g.searchSpace kinds, ∃ name, p.2.name = .str name := by
    intro p hp
    rw [searchSpace_eq] at hp
    obtain ⟨o, ho, rfl⟩ := List.mem_map.1 hp
    exact hg.name_of_mem ho
  rw [search, hkind, ok_bind, collect_unlimited _ _ hnames, searchSpace_eq, List.filter_map,
    List.map_map]
  refine congrArg Except.ok (List.map_congr_left fun o ho => ?_)
  have hkind := hg.kind_eq_of_mem (List.mem_of_mem_filter ho)
  simp only [Function.comp_apply, Occurrence.hit, hkind]

/-! ## Hits of one name -/

theorem holds_self {o : Occurrence} {name : String} (h : o.symbol.name = .str name) :
    o.symbol.holds (Text.toLower name) = true := by
  rw [Symbol.holds, h]
  exact Text.contains_self _

/-- The first hit of a name, of all hits of a search for the name. -/
theorem find?_search (g : Graph) (kinds : List SymbolKind) (name : String) :
    ((((occurrences g.files kinds).filter (·.symbol.holds (Text.toLower name))).map
      Occurrence.hit).find? (·.name = .str name)) =
      (g.declarations kinds name).head?.map Occurrence.hit := by
  rw [← List.head?_filter, List.filter_map, List.head?_map, List.filter_filter, declarations]
  refine congrArg (fun os => Option.map _ (List.head? os)) (List.filter_congr fun o _ => ?_)
  by_cases h : o.symbol.name = .str name
  · simp [Occurrence.hit, h, holds_self h]
  · simp [Occurrence.hit, h]

/-- **A name resolves exactly if a search for it has a hit of that name**, and the first such
    hit is in the unit that the name resolves to. -/
theorem unit_find?_search (hg : g.Built) {name : String} {hits : List SearchHit}
    (h : g.search name .null none = .ok hits) :
    ((∃ found, g.resolve name = .ok (some found)) ↔ ∃ hit ∈ hits, hit.name = .str name) ∧
      ∀ first, hits.find? (·.name = .str name) = some first →
        ∃ found, g.resolve name = .ok (some found) ∧ found.file = .str first.file := by
  have hperm : SymbolKind.searched.Perm SymbolKind.indexed := by decide
  have hunit : (g.declarations SymbolKind.searched name).head?.map Occurrence.unit =
      (g.declarations SymbolKind.indexed name).head?.map Occurrence.unit :=
    unit_head?_declarations_of_perm hperm
  rw [hg.search_eq name (rfl : searchKinds .null = .ok SymbolKind.searched)] at h
  obtain rfl := Except.ok.inj h
  have hfirst := find?_search g SymbolKind.searched name
  rw [hg.resolve_eq]
  constructor
  · have hany : (∃ hit ∈ ((occurrences g.files SymbolKind.searched).filter
        (·.symbol.holds (Text.toLower name))).map Occurrence.hit, hit.name = .str name) ↔
        ((g.declarations SymbolKind.searched name).head?.map Occurrence.hit).isSome := by
      rw [← hfirst, List.find?_isSome]
      simp only [decide_eq_true_eq]
    rw [hany, Option.isSome_map, ← Option.isSome_map (f := Occurrence.unit), hunit,
      Option.isSome_map]
    cases (g.declarations SymbolKind.indexed name).head? <;> simp
  · intro first h
    rw [hfirst] at h
    obtain ⟨o, ho, rfl⟩ := Option.map_eq_some_iff.1 h
    rw [ho] at hunit
    obtain ⟨o', ho', hunit⟩ := Option.map_eq_some_iff.1 hunit.symm
    exact ⟨o'.resolved, by rw [ho']; rfl, congrArg Json.str hunit⟩

/-! ## All symbols -/

theorem filter_holds_empty (hg : g.Built) (kinds : List SymbolKind) :
    (occurrences g.files kinds).filter (·.symbol.holds (Text.toLower "")) =
      occurrences g.files kinds := by
  refine List.filter_eq_self.2 fun o ho => ?_
  obtain ⟨name, hname⟩ := hg.name_of_mem ho
  rw [Symbol.holds, hname]
  exact Text.contains_empty _

/-- The symbols that a search goes through come unit after unit. -/
theorem hits_eq_flatMap (g : Graph) (kinds : List SymbolKind) :
    g.files.keys.flatMap (fun unit =>
      ((occurrences g.files kinds).map Occurrence.hit).filter (·.file = unit)) =
        (occurrences g.files kinds).map Occurrence.hit := by
  rw [map_occurrences]
  refine Table.flatMap_keys_filter g.files fun entry _ hit hhit => ?_
  obtain ⟨kind, -, hhit⟩ := List.mem_flatMap.1 hhit
  obtain ⟨s, -, rfl⟩ := List.mem_map.1 hhit
  rfl

/-- The places of one name among those of all names. -/
theorem filter_places (g : Graph) (name : String) :
    g.places.filter (·.1 = name) =
      ((g.indexes.byName.get? name).getD []).map (name, ·) := by
  rw [places, Table.filter_flatMap_entries g.indexes.byName]
  · cases g.indexes.byName.get? name <;> rfl
  · intro row _ p hp
    obtain ⟨l, -, rfl⟩ := List.mem_map.1 hp
    rfl

/-- **The index of names lists all symbols of the indexed kinds.** -/
theorem places_perm (hg : g.Built) :
    ((occurrences g.files SymbolKind.indexed).map Occurrence.entry).Perm
      (g.places.map fun p => (.str p.1, p.2)) := by
  refine perm_of_filter_perm (f := Prod.fst) fun c => ?_
  by_cases hc : ∃ name, c = .str name
  · -- both parts are what the index lists under the name
    obtain ⟨name, rfl⟩ := hc
    refine List.Perm.of_eq ?_
    have hplaces : g.places.filter (fun p => Json.str p.1 = .str name) =
        ((g.declarations SymbolKind.indexed name).map Occurrence.location).map (name, ·) := by
      simp only [Json.str.injEq, filter_places, hg.places_eq]
    rw [List.filter_map, List.filter_map]
    simp only [Function.comp_def, hplaces, List.map_map]
    refine List.map_congr_left fun o ho => ?_
    rw [Occurrence.entry, (mem_declarations.1 ho).2]
  · -- names are texts on both sides
    rw [List.filter_eq_nil_iff.2, List.filter_eq_nil_iff.2]
    · intro p hp h
      obtain ⟨q, -, rfl⟩ := List.mem_map.1 hp
      exact hc ⟨q.1, (of_decide_eq_true h).symm⟩
    · intro p hp h
      obtain ⟨o, ho, rfl⟩ := List.mem_map.1 hp
      obtain ⟨name, hname⟩ := hg.name_of_mem ho
      exact hc ⟨name, (of_decide_eq_true h).symm.trans hname⟩

/-- A search for the empty text lists what the index of names lists, unit after unit. -/
theorem search_empty (hg : g.Built) : ∃ hits, g.search "" .null none = .ok hits ∧
    hits = g.files.keys.flatMap (fun unit => hits.filter (·.file = unit)) ∧
    (hits.map SearchHit.entry).Perm (g.places.map fun p => (.str p.1, p.2)) := by
  have hperm : SymbolKind.searched.Perm SymbolKind.indexed := by decide
  refine ⟨(occurrences g.files SymbolKind.searched).map Occurrence.hit, ?_,
    (hits_eq_flatMap g SymbolKind.searched).symm, ?_⟩
  · rw [hg.search_eq "" (rfl : searchKinds .null = .ok SymbolKind.searched),
      hg.filter_holds_empty]
  · rw [List.map_map]
    exact ((occurrences_perm g.files hperm).map _).trans hg.places_perm

end Built

end Graph

/-- **Resolving and searching in a built graph agree with the declarations** in its units.  A name
    resolves to its first declaration, which the index alone finds; it does so exactly if a
    search for it has a hit of that name; and a search for the empty text lists what the index
    of names lists. -/
theorem resolve_search_build (units : List RawUnit) (repoPath generatedAt : Json) (name : String) :
    let g := (build units repoPath generatedAt).1
    (g.resolve name = .ok none ↔ ¬ ∃ unit data, (unit, data) ∈ g.files.entries ∧
      data.Declares [.class_, .struct, .protocol, .enum, .function] name) ∧
    g.resolve name = .ok
      ((g.declarations [.class_, .struct, .protocol, .enum, .function] name).head?.map fun o =>
        ⟨o.symbol, .str o.unit, o.kind⟩) ∧
    g.resolve name = g.resolveIndexed name ∧
    (∃ hits, g.search name .null none = .ok hits ∧
      ((∃ found, g.resolve name = .ok (some found)) ↔ ∃ hit ∈ hits, hit.name = .str name) ∧
      ∀ first, hits.find? (·.name = .str name) = some first →
        ∃ found, g.resolve name = .ok (some found) ∧ found.file = .str first.file) ∧
    ∃ hits, g.search "" .null none = .ok hits ∧
      hits = g.files.keys.flatMap (fun unit => hits.filter (·.file = unit)) ∧
      (hits.map fun hit => (hit.name, (⟨.str hit.file, hit.kind⟩ : IndexLocation))).Perm
        (g.places.map fun p => (.str p.1, p.2)) := by
  intro g
  have hg : g.Built := built_build
  have hsearch := hg.search_eq name (rfl : searchKinds .null = .ok SymbolKind.searched)
  refine ⟨?_, hg.resolve_eq name, ?_, ⟨_, hsearch, hg.unit_find?_search hsearch⟩, hg.search_empty⟩
  · rw [hg.resolve_eq, Except.ok.injEq, Option.map_eq_none_iff, List.head?_eq_none_iff]
    exact Graph.declarations_eq_nil_iff
  · rw [hg.resolve_eq, hg.resolveIndexed_eq]

end DeclGraph
