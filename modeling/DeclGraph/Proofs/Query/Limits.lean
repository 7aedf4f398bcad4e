/-
  Limits of searches.

  A search with a limit stops at the hit that reaches it.

  * `collect_limited`: the hits until then are the first ones of all hits;
  * `Built.search_limited`: so a limit only cuts the answers of built graphs;
  * `search_resaved`: a graph that was written and read again has the same hits, in units that
    are relative to its root.
-/
import DeclGraph.Proofs.Query.Askable
import DeclGraph.Proofs.Query.Search
import DeclGraph.Proofs.Snapshot.Resave

namespace DeclGraph

/-! ## Collecting -/

/-- **A collection with a limit has the first hits of one without,** as many as there is room
    for after those that were found before. -/
theorem collect_limited (needle : String) {limit : Int} {found : Nat} (hroom : found < limit)
    {space : List (String × Symbol)} (h : ∀ p ∈ space, ∃ name, p.2.name = .str name) :
    collect needle (some limit) found space =
      (collect needle none found space).map (List.take (limit - found).toNat) := by
  induction space generalizing found with
  | nil => simp [collect]
  | cons p rest ih =>
    obtain ⟨unit, s⟩ := p
    obtain ⟨name, hname⟩ := h (unit, s) List.mem_cons_self
    have hrest := fun p hp => h p (List.mem_cons_of_mem _ hp)
    obtain ⟨later, hlater⟩ := exists_collect needle none (found + 1) hrest
    dsimp only at hname
    rw [collect, collect, hname]
    dsimp only
    split
    · by_cases henough : limit ≤ (found + 1 : Nat)
      · -- this is the last hit there is room for
        have hone : (limit - found).toNat = 1 := by omega
        simp only [isEnough, decide_eq_true henough, if_true, Bool.false_eq_true, if_false, hlater,
          map_ok, hone, List.take_succ_cons, List.take_zero]
      · have hmore : (limit - found).toNat = (limit - (found + 1 : Nat)).toNat + 1 := by omega
        have hnext : (found + 1 : Nat) < limit := by omega
        have hcut := ih hnext hrest
        simp only [isEnough, decide_eq_false henough, Bool.false_eq_true, if_false, hcut, hlater,
          map_ok, hmore, List.take_succ_cons]
    · exact ih hroom hrest

namespace Graph

variable {g : Graph}

theorem name_of_mem_searchSpace (hg : g.Built) {kinds : List SymbolKind} {p : String × Symbol}
    (h : p ∈ g.searchSpace kinds) : ∃ name, p.2.name = .str name := by
  rw [searchSpace_eq] at h
  obtain ⟨o, ho, rfl⟩ := List.mem_map.1 h
  exact hg.name_of_mem ho

/-- **A limit only cuts.** -/
theorem Built.search_limited (hg : g.Built) (text : String) (kind : Json) {n : Int} (hn : 1 ≤ n) :
    g.search text kind (some n) = (g.search text kind none).map (List.take n.toNat) := by
  rw [search, search]
  cases searchKinds kind with
  | error fault => rfl
  | ok kinds =>
    have hroom : (0 : Nat) < n := by omega
    have hlimited := collect_limited (Text.toLower text) hroom
      fun p (hp : p ∈ g.searchSpace kinds) => name_of_mem_searchSpace hg hp
    rw [ok_bind, ok_bind, hlimited, Int.natCast_zero, Int.sub_zero]

end Graph

/-! ## Graphs that were read again -/

/-- A hit with its unit relative to the root. -/
def SearchHit.relocated (head : Option String) (h : SearchHit) : SearchHit :=
  { h with file := belowRoot head h.file }

/-- Nothing that a search looks at is lost when a symbol is written and read. -/
theorem collect_resaved (needle : String) (limit : Option Int) (head : Option String) (found : Nat)
    (space : List (String × Symbol)) :
    collect needle limit found (space.map fun p => (belowRoot head p.1, p.2.resaved head)) =
      (collect needle limit found space).map (List.map (.relocated head)) := by
  induction space generalizing found with
  | nil => rfl
  | cons p rest ih =>
    obtain ⟨unit, s⟩ := p
    have hname : (s.resaved head).name = s.name := rfl
    rw [List.map_cons, collect, collect, hname]
    cases s.name with
    | str name =>
      dsimp only
      split
      · split
        · rfl
        · rw [ih]
          cases collect needle limit (found + 1) rest <;> rfl
      · exact ih found
    | _ => rfl

namespace Graph

variable {g : Graph}

theorem searchSpace_resaved (hids : (g.files.keys.map (belowRoot (rootHead g.repoPath))).Nodup)
    (kinds : List SymbolKind) : g.resaved.searchSpace kinds = (g.searchSpace kinds).map fun p =>
      (belowRoot (rootHead g.repoPath) p.1, p.2.resaved (rootHead g.repoPath)) := by
  have hentries : g.resaved.files.entries = g.files.entries.map fun e =>
      (belowRoot (rootHead g.repoPath) e.1, e.2.retagged.relocated (rootHead g.repoPath)) := by
    rw [files_resaved, Table.entries_ofList_of_nodup]
    rw [List.map_map]
    rwa [Table.keys, List.map_map] at hids
  rw [searchSpace, searchSpace, hentries, List.flatMap_map, List.map_flatMap]
  refine List.flatMap_congr fun e _ => ?_
  simp only [SymbolTable.inKinds, List.map_flatMap, List.map_map, UnitData.relocated,
    UnitData.retagged, SymbolTable.mapSymbols]
  rfl

/-- **A graph that was written and read again has the same hits,** in units that are relative to
    its root, if no two units have become one. -/
theorem search_resaved (hids : (g.files.keys.map (belowRoot (rootHead g.repoPath))).Nodup)
    (text : String) (kind : Json) (limit : Option Int) : g.resaved.search text kind limit =
      (g.search text kind limit).map (List.map (.relocated (rootHead g.repoPath))) := by
  rw [search, search]
  cases searchKinds kind with
  | error fault => rfl
  | ok kinds => rw [ok_bind, ok_bind, searchSpace_resaved hids, collect_resaved]

/-- A search finds symbols of units of the graph. -/
theorem file_mem_of_search {text : String} {kind : Json} {limit : Option Int}
    {hits : List SearchHit} (h : g.search text kind limit = .ok hits) {hit : SearchHit}
    (hhit : hit ∈ hits) : hit.file ∈ g.files.keys := by
  obtain ⟨kinds, -, h⟩ := bind_eq_ok.1 h
  obtain ⟨p, hp, rfl⟩ := mem_of_collect h hhit
  obtain ⟨data, hdata, -⟩ := mem_searchSpace.1 hp
  exact List.mem_map_of_mem hdata

/-- A search of a graph whose units are all relative is the same after writing and reading. -/
theorem search_resaved_eq_self
    (hids : ∀ unit ∈ g.files.keys, belowRoot (rootHead g.repoPath) unit = unit)
    (text : String) (kind : Json) (limit : Option Int) :
    g.resaved.search text kind limit = g.search text kind limit := by
  have hkeys : g.files.keys.map (belowRoot (rootHead g.repoPath)) = g.files.keys :=
    map_eq_self_iff.2 hids
  rw [search_resaved (hkeys.symm ▸ g.files.nodup)]
  cases h : g.search text kind limit with
  | error fault => rfl
  | ok hits =>
    refine congrArg Except.ok (map_eq_self_iff.2 fun hit hhit => ?_)
    rw [SearchHit.relocated, hids hit.file (file_mem_of_search h hhit)]

/-- A built graph can be searched after writing and reading, even if units have become one. -/
theorem Built.exists_search_resaved (hg : g.Built) (text : String) {kind : Json}
    {kinds : List SymbolKind} (hkind : searchKinds kind = .ok kinds) (limit : Option Int) :
    ∃ hits, g.resaved.search text kind limit = .ok hits := by
  rw [search, hkind, ok_bind]
  refine exists_collect _ _ _ fun p hp => ?_
  obtain ⟨data, hdata, k, -, hs⟩ := mem_searchSpace.1 hp
  rw [files_resaved] at hdata
  obtain ⟨e, he, heq⟩ := List.mem_map.1 (Table.mem_of_mem_ofList hdata)
  obtain ⟨-, rfl⟩ := Prod.mk.inj heq
  obtain ⟨s', hs', hsame⟩ := List.mem_map.1 hs
  obtain ⟨s, hs, rfl⟩ := List.mem_map.1 hs'
  obtain ⟨name, -, hname⟩ := ((hg.declared e.1 e.2 he).symbols k s hs).name_spec
  exact ⟨name, hsame ▸ hname⟩

end Graph

end DeclGraph
