/-
  Searching a snapshot on the command line.

  A command asks the snapshot that it names, or that of the directory in which it runs.

  * `Terminal.graph_eq`: a command reads the graph of that snapshot;
  * `Command.run_search`: what a search writes as JSON;
  * `search_limits_build` joins what searches with a limit answer: the graph itself, the tool of
    the server, and the command.
-/
import DeclGraph.Cli.Run
import DeclGraph.Proofs.Server.Search
import DeclGraph.Proofs.Session.Reload
import DeclGraph.Proofs.Snapshot.Reopened

namespace DeclGraph

namespace Cli

/-- The path of the snapshot that a command asks. -/
inductive Terminal.SnapshotAt (t : Terminal) : Option Path → Path → Prop
  | named (path : Path) : SnapshotAt t (some path) path
  | ofDirectory {c : Config} : Config.resolve t.sources t.workDir = .ok c →
      SnapshotAt t none (c.snapshotPath t.workDir)

/-- A command reads the graph of its snapshot. -/
theorem Terminal.graph_eq {t : Terminal} {snapshot : Option Path} {path : Path}
    (hpath : t.SnapshotAt snapshot path) {g : Graph}
    (hload : loadSnapshot t.host path t.files t.workDir = .ok g) : t.graph snapshot = pure g := by
  cases hpath with
  | named => rw [graph, hload]; rfl
  | ofDirectory hconfig =>
    simp only [graph, config, configAt, hconfig, pure_bind, hload]
    rfl

/-- What a search writes as JSON. -/
def searchReport (text : String) (kind : Option SymbolKind) (hits : List SearchHit) : Json :=
  .obj [("query", .str text), ("kind", .str (kindName kind)),
    ("results", .arr (hits.map SearchHit.toJson))]

/-- A host writes what a search of a graph of texts finds. -/
theorem plain_searchReport {g : Graph} (hg : g.Textual) {text : String} {kind : Option SymbolKind}
    {limit : Option Int} {hits : List SearchHit}
    (hhits : g.search text (.ofText? (kind.map SymbolKind.name)) limit = .ok hits) :
    (searchReport text kind hits).Plain Json.Short 4 := by
  have hhit (hit : SearchHit) (hmem : hit ∈ hits) : hit.toJson.Plain Json.Short 2 := by
    obtain ⟨kinds, -, hcollect⟩ := bind_eq_ok.1 hhits
    obtain ⟨p, hp, rfl⟩ := mem_of_collect hcollect hmem
    obtain ⟨data, hdata, k, -, hs⟩ := Graph.mem_searchSpace.1 hp
    have hsymbol := Graph.mem_symbols_of_unit hdata hs
    obtain ⟨name, hname⟩ := hg.names p.2 hsymbol
    obtain ⟨supertypes, hsupertypes⟩ := hg.supertypes p.2 hsymbol
    simp [SearchHit.toJson, Json.plain_obj_iff, hname, hsupertypes, Json.Plain.str,
      Json.plain_arr_map fun n _ => Json.Plain.str n]
  simp [searchReport, Json.plain_obj_iff, Json.Plain.str, Json.plain_arr_map hhit]

theorem searchKinds_kindName (kind : Option SymbolKind) :
    searchKinds (.str (kindName kind)) = searchKinds (.ofText? (kind.map SymbolKind.name)) := by
  cases kind <;> rfl

/-- **A search with a limit writes what the graph of its snapshot answers.** -/
theorem Command.run_search {t : Terminal} {snapshot : Option Path} {path : Path}
    (hpath : t.SnapshotAt snapshot path) {g : Graph} (hg : g.Textual)
    (hload : loadSnapshot t.host path t.files t.workDir = .ok g) {text : String}
    {kind : Option SymbolKind} {n : Int} {hits : List SearchHit}
    (hhits : g.search text (.ofText? (kind.map SymbolKind.name)) (some n) = .ok hits) :
    (Command.search text kind (some n) snapshot true).run t =
      (.ok (), { output := [(searchReport text kind hits).render .indented], files := t.files }) := by
  have hsearch : g.search text (.str (kindName kind)) (some n) = .ok hits := by
    rw [← hhits, Graph.search, Graph.search, searchKinds_kindName]
  have hwritten : (searchReport text kind hits).write t.host.writeDepth .indented =
      .ok ((searchReport text kind hits).render .indented) := by
    have hdepth : 4 ≤ t.host.writeDepth := Nat.le_trans (by decide) t.host.ample.2.1
    exact Json.write_eq_ok_iff.2 ⟨(plain_searchReport hg hhits).flaw?_eq_none hdepth, rfl⟩
  have hrun : runSearch t text kind (some n) snapshot true =
      say [(searchReport text kind hits).render .indented] := by
    rw [runSearch, Terminal.graph_eq hpath hload]
    change (orCrash (g.search text (.str (kindName kind)) (some n)) >>= _) = _
    rw [hsearch]
    change (orCrash ((searchReport text kind hits).write t.host.writeDepth .indented) >>= _) = _
    rw [hwritten]
    rfl
  rw [run, toRun, hrun]
  rfl

end Cli

/-! ## Built graphs -/

/-- The kinds of the tool can be searched for. -/
theorem exists_searchKinds {kind : Option SymbolKind} (h : kind ≠ some .variable_) :
    ∃ kinds, searchKinds (.ofText? (kind.map SymbolKind.name)) = .ok kinds := by
  cases kind with
  | none => exact ⟨_, rfl⟩
  | some k => exact ⟨[k], (exists_search_of_ne (fun hk => h (congrArg some hk)) "" none).2⟩

/-- What a built graph is read as after it was saved. -/
theorem Graph.Built.loadSnapshot_resaved {g : Graph} (hg : g.Built)
    (hroot : g.repoPath.Plain Json.Short 6) (htime : g.generatedAt.Plain Json.Short 6)
    {h h' : Host} {path workDir : Path} {files files' : FileTree}
    (hsave : saveSnapshot h' g path files workDir = .ok files') :
    loadSnapshot h path files' workDir = .ok g.resaved := by
  refine hg.loadSnapshot_of_save hroot htime ?_ hsave
  refine ofDocument_toDocument_resaved fun _ s hs => ?_
  obtain ⟨unit, data, kind, hdata, hs⟩ := hg.mem_symbols hs
  exact ⟨unit, ((hg.declared unit data hdata).symbols kind s hs).file_eq⟩

/-- **A limit only cuts the answer of a built graph.**  The tool of the server shows the first hits
    of all, up to its limit, and says truly whether there are more.  The command shows the first
    hits too, in units relative to the root: they are those of the tool unless an id of a unit
    begins with the root. -/
theorem search_limits_build {units : List RawUnit} {root? : Option String} {now : String}
    {g : Graph} (hg : (build units (.ofText? root?) (.str now)).1 = g) (text : String)
    {kind : Option SymbolKind} (hkind : kind ≠ some .variable_) :
    (∀ (kind : Json) (n : Int), 1 ≤ n →
      g.search text kind (some n) = (g.search text kind none).map (List.take n.toNat)) ∧
    ∃ hits, g.search text (.ofText? (kind.map SymbolKind.name)) none = .ok hits ∧
      (∀ (s : Server) (around : Surroundings) (limit : Option Int),
        s.session.current = .ok g → (∀ n ∈ limit, 1 ≤ n) → 0 ≤ s.config.limits.searchDefault →
        let shown := min (limit.getD s.config.limits.searchDefault) 500
        ∃ result, s.call around (.searchSymbols text kind limit) = (s, .ok result) ∧
          result.valueAt "results" = .arr ((hits.take shown.toNat).map SearchHit.toJson) ∧
          result.valueAt "truncated" = .bool (decide (shown < hits.length))) ∧
      ∀ (t : Cli.Terminal) (h : Host) files path snapshot (n : Int),
        saveSnapshot h g path files t.workDir = .ok t.files → t.SnapshotAt snapshot path → 1 ≤ n →
        ∃ found, (Cli.Command.search text kind (some n) snapshot true).run t =
            (.ok (), { output := [(Cli.searchReport text kind found).render .indented]
                       files := t.files }) ∧
          ((g.files.keys.map (belowRoot (rootHead g.repoPath))).Nodup →
            found = (hits.take n.toNat).map (.relocated (rootHead g.repoPath))) ∧
          (OutsideRoot (.ofText? root?) units → found = hits.take n.toNat) := by
  have hbuilt : g.Built := hg ▸ built_build
  have hroot : g.repoPath = .ofText? root? := by rw [← hg]; rfl
  have htime : g.generatedAt = .str now := by rw [← hg]; rfl
  obtain ⟨kinds, hkinds⟩ := exists_searchKinds hkind
  have hhits := hbuilt.search_eq text hkinds
  refine ⟨fun kind n hn => hbuilt.search_limited text kind hn, _, hhits, ?_, ?_⟩
  · intro s around limit hcurrent hlimit hdefault shown
    obtain ⟨hresults, htruncated⟩ := searchResult_of_take (searchLimit_nonneg hlimit hdefault)
      text kind _
    exact ⟨_, Server.call_searchSymbols hbuilt hcurrent around hhits hlimit hdefault, hresults,
      htruncated⟩
  · intro t h files path snapshot n hsave hpath hn
    have hload := hbuilt.loadSnapshot_resaved (h := t.host) (hroot ▸ Json.plain_ofText? root?)
      (htime ▸ .str now) hsave
    have hlimited := hbuilt.search_limited text (.ofText? (kind.map SymbolKind.name)) hn
    rw [hhits, map_ok] at hlimited
    obtain ⟨found, hfound⟩ := hbuilt.exists_search_resaved text hkinds (some n)
    refine ⟨found, Cli.Command.run_search hpath hbuilt.textual.resaved hload hfound, fun hids => ?_, fun houtside => ?_⟩
    · rw [Graph.search_resaved hids, hlimited] at hfound
      exact (Except.ok.inj hfound).symm
    · have hids : ∀ unit ∈ g.files.keys, belowRoot (rootHead g.repoPath) unit = unit := by
        intro unit hunit
        cases hhead : rootHead g.repoPath with
        | none => rfl
        | some head =>
          subst hg
          exact Text.dropPrefix_of_not_startsWith (houtside.keys head hhead unit hunit)
      rw [Graph.search_resaved_eq_self hids, hlimited] at hfound
      exact (Except.ok.inj hfound).symm

/-- A unit with an id below the root `src`, which declares one class. -/
def classBelowRoot : RawUnit where
  id := "src/A.swift"
  dialect := .str "swift"
  dump := .obj [("key.kind", .str "source.lang.swift.decl.class"), ("key.name", .str "A")]

/-- The tool shows that class in its unit, and the command in another one. -/
theorem search_limits_classBelowRoot : ∃ (g : Graph) (s : Server) (t : Cli.Terminal),
    (build [classBelowRoot] (.ofText? (some "src")) (.str "")).1 = g ∧
    s.session.current = .ok g ∧
    saveSnapshot {} g (Path.ofText "app.json") .empty t.workDir = .ok t.files ∧
    (∃ result, s.call {} (.searchSymbols "A" none (some 5)) = (s, .ok result) ∧
      result.valueAt "results" = .arr [SearchHit.toJson ⟨.str "A", .class_, "src/A.swift", []⟩]) ∧
    (Cli.Command.search "A" none (some 5) (some (Path.ofText "app.json")) true).run t =
      (.ok (), {
        output := [(Cli.searchReport "A" none [⟨.str "A", .class_, "A.swift", []⟩]).render .indented]
        files := t.files }) := by
  obtain ⟨g, hg⟩ : ∃ g, (build [classBelowRoot] (.ofText? (some "src")) (.str "")).1 = g := ⟨_, rfl⟩
  have hhits : (g.search "A" .null none).toOption =
      some [⟨.str "A", .class_, "src/A.swift", []⟩] := by
    rw [← hg]
    decide +kernel
  have hids : (g.files.keys.map (belowRoot (rootHead g.repoPath))).Nodup := by
    rw [← hg]
    decide +kernel
  have hroot : rootHead g.repoPath = some "src/" := by
    rw [← hg]
    decide +kernel
  have hplaceless : ∀ e ∈ g.files.entries, ∀ kind ∈ SymbolKind.all, ∀ s ∈ e.2.symbols.bucket kind,
      s.offset = .null ∧ s.length = .null := by
    rw [← hg]
    decide +kernel
  have hplain : g.repoPath.Plain Json.Short 6 ∧ g.generatedAt.Plain Json.Short 6 := by
    rw [← hg]
    exact ⟨Json.plain_ofText? (some "src"), .str ""⟩
  have htext := ((hg ▸ built_build : g.Built).toText_cases hplain.1 hplain.2 {}).1.2
    (Graph.extents_of_placeless hplaceless)
  obtain ⟨files, hsave⟩ := exists_saveSnapshot_iff.2 ⟨accepts_empty, htext⟩
  let s : Server := { session := ⟨some g⟩ }
  let t : Cli.Terminal := { files, workDir := .top, globalFile := .top }
  have hkind : none ≠ some SymbolKind.variable_ := by decide
  obtain ⟨-, hits, hsearch, htool, hcommand⟩ := search_limits_build hg "A" hkind
  obtain rfl : hits = [⟨.str "A", .class_, "src/A.swift", []⟩] := by
    change g.search "A" .null none = .ok hits at hsearch
    rw [hsearch] at hhits
    exact Option.some.inj hhits
  have hdefault : (0 : Int) ≤ ({} : Config).limits.searchDefault := by decide
  obtain ⟨result, hcall, hresults, -⟩ := htool s {} (some 5) rfl (by decide) hdefault
  obtain ⟨found, hrun, hfound, -⟩ := hcommand t {} .empty _ _ 5 hsave (.named _) (by decide)
  rw [hfound hids, hroot] at hrun
  exact ⟨g, s, t, hg, rfl, hsave, ⟨result, hcall, hresults⟩, hrun⟩

end DeclGraph
