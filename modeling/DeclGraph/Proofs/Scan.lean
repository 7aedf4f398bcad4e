/-
  A scan accounts for every source unit once.

  * `SourceUnit.data?`: what is read off the dump that the parser of a unit leaves;
  * `ScanResult.Accounts`: every unit of a list is in the graph or among the failures;
  * `Path.Rooted.resolve`: the root of a scan is absolute;
  * `scan_accounts`: a scan accounts for the units that are found below its root.
-/
import DeclGraph.Json.Printer
import DeclGraph.Proofs.Discovery
import DeclGraph.Proofs.Graph.Isolation
import DeclGraph.Proofs.Parsing
import DeclGraph.Scan

namespace DeclGraph

/-! ## Roots -/

/-- A path from the top of the file system. -/
def Path.Rooted (p : Path) : Prop := p.root = "/" ∨ p.root = "//"

namespace Path

theorem rootOf_eq (cs : List Char) : rootOf cs = "/" ∨ rootOf cs = "//" ∨ rootOf cs = "" := by
  unfold rootOf
  split <;> simp

theorem ofText_root (text : String) : (ofText text).root = "" ∨ (ofText text).Rooted := by
  rcases rootOf_eq text.toList with h | h | h
  · exact Or.inr (Or.inl h)
  · exact Or.inr (Or.inr h)
  · exact Or.inl h

/-- A path begins at the top or at the working directory, also after a home directory has been
    put into it. -/
theorem expand_root {h : Host} {text : String} {target : Path}
    (htarget : (ofText text).expand h = .ok target) : target.root = "" ∨ target.Rooted := by
  have hsame := ofText_root text
  unfold expand at htarget
  split at htarget
  · split at htarget
    · split at htarget
      · rename_i home _
        obtain rfl := Except.ok.inj htarget
        exact ofText_root home
      · cases htarget
    · obtain rfl := Except.ok.inj htarget
      exact hsame
  · obtain rfl := Except.ok.inj htarget
    exact hsame

theorem Rooted.resolve {base p : Path} (h : base.Rooted) (hp : p.root = "" ∨ p.Rooted) :
    (base.resolve p).Rooted := by
  have hroot : (base.resolve p).root = if p.root = "" then base.root else p.root := by
    rw [Path.resolve, join, isAbsolute]
    by_cases hempty : p.root = "" <;> simp [hempty]
  rw [Rooted, hroot]
  rcases hp with hempty | hrooted
  · rwa [if_pos hempty]
  · split
    · exact h
    · exact hrooted

theorem Rooted.isAbsolute {p : Path} (h : p.Rooted) : p.isAbsolute = true := by
  rcases h with h | h <;> simp [Path.isAbsolute, h]

/-- The text of such a path begins with a slash. -/
theorem Rooted.exists_toText {p : Path} (h : p.Rooted) : ∃ tail, p.toText = "/" ++ tail := by
  rcases h with h | h
  · exact ⟨"/".intercalate p.names, by simp [toText, h]⟩
  · refine ⟨"/" ++ "/".intercalate p.names, ?_⟩
    rw [← String.append_assoc]
    simp [toText, h]

end Path

/-! ## What becomes of a unit -/

section

variable (h : Host) (c : ParserConfig) (outcome : SourceUnit → Outcome)

/-- What a unit declares, if its parser leaves a dump that can be read. -/
def SourceUnit.data? (u : SourceUnit) : Option UnitData :=
  (u.dump? h c outcome).bind fun dump => (Ast.extract u.dialect u.id dump).toOption

/-- Whether the dump of a unit is there and cannot be read. -/
def SourceUnit.isUnread (u : SourceUnit) : Bool :=
  (u.dump? h c outcome).isSome && (u.data? h c outcome).isNone

/-- A unit with its dump. -/
def SourceUnit.raw? (u : SourceUnit) : Option RawUnit :=
  (u.dump? h c outcome).map fun dump => { id := u.id, dialect := .str u.dialect.name, dump }

variable {h c outcome} {u : SourceUnit}

theorem SourceUnit.data?_eq_some_iff {data : UnitData} : u.data? h c outcome = some data ↔
    ∃ dump, (outcome u).Leaves h dump ∧ Ast.extract u.dialect u.id dump = .ok data := by
  rw [data?, Option.bind_eq_some_iff]
  refine exists_congr fun dump => and_congr dump?_eq_some_iff ?_
  cases Ast.extract u.dialect u.id dump <;> simp [Except.toOption]

theorem SourceUnit.isUnread_iff : u.isUnread h c outcome = true ↔ ∃ dump fault,
    (outcome u).Leaves h dump ∧ Ast.extract u.dialect u.id dump = .error fault := by
  simp only [← dump?_eq_some_iff (h := h) (c := c)]
  rw [isUnread, data?]
  cases u.dump? h c outcome with
  | none => simp
  | some dump => cases hread : Ast.extract u.dialect u.id dump <;> simp [hread, Except.toOption]

/-- The dialect of a raw unit is known if it was one before. -/
theorem RawUnit.extract_named (d : Dialect) (id : String) (dump : Json) :
    RawUnit.extract { id, dialect := .str d.name, dump } = Ast.extract d id dump := by
  rw [extract, Dialect.ofJson, Json.text?, Option.bind_some, Dialect.ofName?_name]
  rfl

theorem SourceUnit.extract_of_raw? {r : RawUnit} (hraw : u.raw? h c outcome = some r) :
    r.id = u.id ∧ (u.dump? h c outcome).isSome ∧ r.extract.toOption = u.data? h c outcome := by
  obtain ⟨dump, hdump, rfl⟩ := Option.map_eq_some_iff.1 hraw
  rw [RawUnit.extract_named, data?, hdump]
  exact ⟨rfl, rfl, rfl⟩

theorem SourceUnit.dump?_of_raw?_eq_none (hraw : u.raw? h c outcome = none) :
    u.dump? h c outcome = none ∧ u.data? h c outcome = none := by
  have hdump := Option.map_eq_none_iff.1 hraw
  rw [data?, hdump]
  exact ⟨rfl, rfl⟩

/-! ## The graph of a run -/

variable {units : List SourceUnit}

theorem filterMap_raw : (units.filterMap (SourceUnit.raw? h c outcome)).filterMap (fun r =>
    r.extract.toOption.map (r.id, ·)) = units.filterMap fun u => (u.data? h c outcome).map (u.id, ·) := by
  rw [List.filterMap_filterMap]
  refine List.filterMap_congr fun u _ => ?_
  cases hraw : u.raw? h c outcome with
  | none =>
    rw [(SourceUnit.dump?_of_raw?_eq_none hraw).2]
    rfl
  | some r =>
    obtain ⟨hid, -, hdata⟩ := SourceUnit.extract_of_raw? hraw
    rw [Option.bind_some, hid, hdata]

theorem map_id_unreadable :
    ((units.filterMap (SourceUnit.raw? h c outcome)).filter fun r => !r.isReadable).map RawUnit.id =
      (units.filter (SourceUnit.isUnread h c outcome)).map SourceUnit.id := by
  induction units with
  | nil => rfl
  | cons u units ih =>
    cases hraw : u.raw? h c outcome with
    | none =>
      obtain ⟨hdump, -⟩ := SourceUnit.dump?_of_raw?_eq_none hraw
      simpa [hraw, hdump, SourceUnit.isUnread] using ih
    | some r =>
      obtain ⟨hid, hdump, hdata⟩ := SourceUnit.extract_of_raw? hraw
      have hreadable : r.isReadable = (u.data? h c outcome).isSome := by rw [RawUnit.isReadable, hdata]
      cases hu : u.data? h c outcome with
      | none => simpa [hraw, hdump, hreadable, hu, hid, SourceUnit.isUnread] using ih
      | some data => simpa [hraw, hdump, hreadable, hu, SourceUnit.isUnread] using ih

variable {installed : String → Bool} {run : ParseRun} (hnodup : (units.map SourceUnit.id).Nodup)
  (hrun : parseAll h c installed outcome units = .ok run)

include hnodup hrun

theorem entries_rawTable_run :
    (rawTable (run.rawUnits.map fun (id, dialect, dump) =>
      { id, dialect := .str dialect.name, dump })).entries =
    (units.filterMap (SourceUnit.raw? h c outcome)).map fun r => (r.id, r) := by
  obtain ⟨hdumps, -⟩ := parseAll_eq_ok hnodup hrun
  have hraw : (run.rawUnits.map fun (id, dialect, dump) =>
      ({ id, dialect := .str dialect.name, dump } : RawUnit)) =
      units.filterMap (SourceUnit.raw? h c outcome) := by
    rw [ParseRun.rawUnits, hdumps, List.map_filterMap]
    refine List.filterMap_congr fun u _ => ?_
    rw [SourceUnit.raw?, Option.map_map]
    rfl
  have hids : (run.dumps.entries.map Prod.fst) =
      (units.filterMap (SourceUnit.raw? h c outcome)).map RawUnit.id := by
    rw [← hraw, List.map_map]
    rfl
  rw [hraw]
  exact rawTable_of_nodup (hids ▸ run.dumps.nodup)

variable (repoPath generatedAt : Json)

theorem entries_files_run : (run.build repoPath generatedAt).1.files.entries =
    units.filterMap fun u => (u.data? h c outcome).map (u.id, ·) := by
  rw [ParseRun.build, entries_files_build, extracted_of_entries (entries_rawTable_run hnodup hrun),
    filterMap_raw]

theorem keys_files_run : (run.build repoPath generatedAt).1.files.keys =
    (units.filter fun u => (u.data? h c outcome).isSome).map SourceUnit.id := by
  rw [Table.keys, entries_files_run hnodup hrun, map_fst_filterMap _ fun _ data => data]

theorem mem_entries_files_run {id : String} {data : UnitData} :
    (id, data) ∈ (run.build repoPath generatedAt).1.files.entries ↔ ∃ u ∈ units, u.id = id ∧
      ∃ dump, (outcome u).Leaves h dump ∧ Ast.extract u.dialect id dump = .ok data := by
  rw [entries_files_run hnodup hrun, List.mem_filterMap]
  constructor
  · rintro ⟨u, hu, hdata⟩
    obtain ⟨data, hread, ⟨⟩⟩ := Option.map_eq_some_iff.1 hdata
    exact ⟨u, hu, rfl, SourceUnit.data?_eq_some_iff.1 hread⟩
  · rintro ⟨u, hu, rfl, hread⟩
    exact ⟨u, hu, by rw [SourceUnit.data?_eq_some_iff.2 hread]; rfl⟩

theorem failed_run : (run.build repoPath generatedAt).2.failed =
    (units.filter (SourceUnit.isUnread h c outcome)).map SourceUnit.id := by
  rw [ParseRun.build, build_eq, ← map_id_unreadable]
  exact failing_of_entries (entries_rawTable_run hnodup hrun)

end

/-! ## Scans -/

/-- Every unit of a list, with the given outcomes of their parsers, is in the graph of a
    scan or among its failures, and none is in both. -/
structure ScanResult.Accounts (found : ScanResult) (h : Host) (outcome : SourceUnit → Outcome)
    (units : List SourceUnit) : Prop where
  nodup : (found.graph.files.keys ++ found.stats.failed).Nodup
  perm : (found.graph.files.keys ++ found.stats.failed).Perm (units.map SourceUnit.id)
  total : found.stats.total = units.length
  processed : found.stats.processed = found.graph.files.size
  errors : found.stats.errors = found.stats.failed.length
  sum : found.stats.total = found.stats.processed + found.stats.errors
  ascending : found.graph.files.keys.Pairwise (· < ·)
  /-- a unit of the graph holds what is read off its own dump in its own dialect, … -/
  data : ∀ id data, (id, data) ∈ found.graph.files.entries ↔ ∃ u ∈ units, u.id = id ∧
    ∃ dump, (outcome u).Leaves h dump ∧ Ast.extract u.dialect id dump = .ok data
  /-- … and the others are those without a dump and then those with a dump that cannot be
      read -/
  failed : ∃ unparsed unread, found.stats.failed = unparsed ++ unread ∧
    unparsed.Pairwise (· < ·) ∧ unread.Pairwise (· < ·) ∧
    (∀ id, id ∈ unparsed ↔ ∃ u ∈ units, u.id = id ∧ ∀ dump, ¬ (outcome u).Leaves h dump) ∧
    ∀ id, id ∈ unread ↔ ∃ u ∈ units, u.id = id ∧
      ∃ dump fault, (outcome u).Leaves h dump ∧ Ast.extract u.dialect id dump = .error fault

section

variable {h : Host} {c : ParserConfig} {outcome : SourceUnit → Outcome} {units : List SourceUnit}

/-- The units that are read, those without a dump, and those with an unreadable one are all
    units. -/
theorem perm_of_outcomes :
    (units.filter (fun u => (u.data? h c outcome).isSome) ++
      (units.filter (fun u => (u.dump? h c outcome).isNone) ++
        units.filter (SourceUnit.isUnread h c outcome))).Perm units := by
  have hrest : (units.filter (fun u => (u.dump? h c outcome).isNone) ++
      units.filter (SourceUnit.isUnread h c outcome)).Perm
      (units.filter fun u => !(u.data? h c outcome).isSome) := by
    have hsplit := List.filter_append_perm (fun u => (u.dump? h c outcome).isNone)
      (units.filter fun u => !(u.data? h c outcome).isSome)
    rw [List.filter_filter, List.filter_filter] at hsplit
    convert hsplit using 2
    · refine List.filter_congr fun u _ => ?_
      -- nothing is read without a dump
      cases hdump : u.dump? h c outcome <;> simp [SourceUnit.data?, hdump]
    · refine List.filter_congr fun u _ => ?_
      rw [SourceUnit.isUnread]
      cases u.dump? h c outcome <;> cases u.data? h c outcome <;> rfl
  exact (hrest.append_left _).trans (List.filter_append_perm _ _)

theorem mem_map_id_filter {p : SourceUnit → Bool} {id : String} :
    id ∈ (units.filter p).map SourceUnit.id ↔ ∃ u ∈ units, u.id = id ∧ p u = true := by
  simp only [List.mem_map, List.mem_filter]
  constructor
  · rintro ⟨u, ⟨hu, hp⟩, hid⟩
    exact ⟨u, hu, hid, hp⟩
  · rintro ⟨u, hu, hid, hp⟩
    exact ⟨u, ⟨hu, hp⟩, hid⟩

theorem mem_unread_iff {id : String} :
    id ∈ (units.filter (SourceUnit.isUnread h c outcome)).map SourceUnit.id ↔
      ∃ u ∈ units, u.id = id ∧
        ∃ dump fault, (outcome u).Leaves h dump ∧ Ast.extract u.dialect id dump = .error fault := by
  rw [mem_map_id_filter]
  refine exists_congr fun u => and_congr_right fun _ => and_congr_right fun hid => ?_
  rw [← hid]
  exact SourceUnit.isUnread_iff

variable {installed : String → Bool} {run : ParseRun} {repoPath generatedAt : Json}

/-- **A scan of units with ascending ids accounts for them.** -/
theorem accounts_of_run {found : ScanResult}
    (hascending : (units.map SourceUnit.id).Pairwise (· < ·))
    (hrun : parseAll h c installed outcome units = .ok run)
    (hgraph : found.graph = (run.build repoPath generatedAt).1)
    (hstats : found.stats = {
      total := units.length, processed := (run.build repoPath generatedAt).2.processed
      errors := (run.build repoPath generatedAt).2.errors + run.failures.size
      failed := run.failures.keys ++ (run.build repoPath generatedAt).2.failed }) :
    found.Accounts h outcome units := by
  have hnodup : (units.map SourceUnit.id).Nodup := hascending.imp fun h => ne_of_lt h
  have hpart (p : SourceUnit → Bool) : ((units.filter p).map SourceUnit.id).Pairwise (· < ·) :=
    hascending.sublist (List.filter_sublist.map _)
  have hkeys : found.graph.files.keys =
      (units.filter fun u => (u.data? h c outcome).isSome).map SourceUnit.id := by
    rw [hgraph, keys_files_run hnodup hrun]
  have hfailed : found.stats.failed =
      (units.filter fun u => (u.dump? h c outcome).isNone).map SourceUnit.id ++
        (units.filter (SourceUnit.isUnread h c outcome)).map SourceUnit.id := by
    rw [hstats]
    dsimp only
    rw [(parseAll_eq_ok hnodup hrun).2, failed_run hnodup hrun]
  have hperm : (found.graph.files.keys ++ found.stats.failed).Perm (units.map SourceUnit.id) := by
    rw [hkeys, hfailed, ← List.map_append, ← List.map_append]
    exact perm_of_outcomes.map _
  have hprocessed : found.stats.processed = found.graph.files.size := by
    rw [hstats, hgraph]
    rfl
  have herrors : found.stats.errors = found.stats.failed.length := by
    have hsize : run.failures.size = run.failures.keys.length := (List.length_map _).symm
    have hbuild : (run.build repoPath generatedAt).2.errors =
        (run.build repoPath generatedAt).2.failed.length := by rw [ParseRun.build, build_eq]
    rw [hstats]
    dsimp only
    rw [List.length_append, hsize, hbuild, Nat.add_comm]
  refine {
    nodup := hperm.nodup_iff.2 hnodup
    perm := hperm
    total := by rw [hstats]
    processed := hprocessed
    errors := herrors
    sum := ?_
    ascending := hkeys ▸ hpart _
    data := fun id data => hgraph ▸ mem_entries_files_run hnodup hrun repoPath generatedAt
    failed := ⟨_, _, hfailed, hpart _, hpart _, fun id => ?_, fun id => mem_unread_iff⟩ }
  · -- the lists of the graph and of the failures make up the units
    have hlength := hperm.length_eq
    have hsize : found.graph.files.size = found.graph.files.keys.length := (List.length_map _).symm
    rw [List.length_append, List.length_map] at hlength
    rw [hprocessed, herrors, hsize, hlength, hstats]
  · rw [mem_map_id_filter]
    exact exists_congr fun u => and_congr_right fun _ => and_congr_right fun _ =>
      SourceUnit.isNone_dump?_iff

end

theorem scanEntries_eq_ok {c : Config} {s : Surroundings} {root : Path}
    {entries : List (String × FileTree)} {found : ScanResult}
    (h : scanEntries c s root entries = .ok found) :
    let units := findUnits root entries [.swift, .objc] c.parsers.skipDirs
    ∃ run, parseAll s.host c.parsers s.installed s.outcome units = .ok run ∧ found.root = root ∧
      found.graph = (run.build (.str root.toText) (.str s.now)).1 ∧
      found.stats = {
        total := units.length
        processed := (run.build (.str root.toText) (.str s.now)).2.processed
        errors := (run.build (.str root.toText) (.str s.now)).2.errors + run.failures.size
        failed := run.failures.keys ++ (run.build (.str root.toText) (.str s.now)).2.failed } := by
  unfold scanEntries at h
  dsimp only at h
  split at h
  · cases h
  · split at h
    · cases h
    · obtain ⟨run, hrun, h⟩ := bind_eq_ok.1 h
      obtain rfl := Except.ok.inj h
      exact ⟨run, hrun, rfl, rfl, rfl⟩

/-- A scan that succeeds is one of the directory at the path, with home directories put in. -/
theorem scan_eq_ok {c : Config} {s : Surroundings} {path : Path} {found : ScanResult}
    (h : scan c s path = .ok found) : ∃ target entries, path.expand s.host = .ok target ∧
      s.files.entriesAt? (s.workDir.resolve target) = some entries ∧
      scanEntries c s (s.workDir.resolve target) entries = .ok found := by
  unfold scan at h
  split at h
  · cases h
  · rename_i target htarget
    dsimp only at h
    split at h
    · cases h
    · split at h
      · cases h
      · split at h
        · cases h
        · rename_i entries hentries
          exact ⟨target, entries, htarget, hentries, h⟩

/-- **A scan accounts for the units below its root.**  The ids of these units do not begin with
    the path of the root, which is absolute. -/
theorem scan_accounts {c : Config} {s : Surroundings} {path : String} {found : ScanResult}
    (hfiles : s.files.Regular) (hdir : s.workDir.Rooted)
    (h : scan c s (Path.ofText path) = .ok found) :
    ∃ target entries, (Path.ofText path).expand s.host = .ok target ∧
      s.files.entriesAt? found.root = some entries ∧
      let units := findUnits found.root entries [.swift, .objc] c.parsers.skipDirs
      found.Accounts s.host s.outcome units ∧
      found.root = s.workDir.resolve target ∧ found.root.isAbsolute = true ∧
      found.graph.repoPath = .str found.root.toText ∧
      ∀ u ∈ units, Text.startsWith u.id (found.root.toText ++ "/") = false := by
  obtain ⟨target, entries, htarget, hentries, h⟩ := scan_eq_ok h
  have hregular := hfiles.entriesAt? hentries
  have hroot := hdir.resolve (Path.expand_root htarget)
  obtain ⟨run, hrun, hfound, hgraph, hstats⟩ := scanEntries_eq_ok h
  rw [← hfound] at hentries hroot hrun hgraph hstats
  refine ⟨target, entries, htarget, hentries, ?_, hfound, hroot.isAbsolute, ?_, fun u hu => ?_⟩
  · exact accounts_of_run (ascending_ids_findUnits hregular) hrun hgraph hstats
  · rw [hgraph]
    rfl
  · obtain ⟨tail, htail⟩ := hroot.exists_toText
    rw [htail, String.append_assoc]
    exact startsWith_of_mem_findUnits hregular hu _

/-- Three units: the first one is read, the parser of the second one does not end, and the dump
    of the third one has no list of nodes. -/
def threeUnits : Surroundings where
  files := .dir [("app", .dir [("A.swift", .file []), ("B.swift", .file []), ("C.swift", .file [])])]
  outcome u :=
    if u.id = "A.swift" then .finished 0 (Utf8.encode ((Json.obj []).render .oneLine)) []
    else if u.id = "B.swift" then .hanging
    else .finished 1 (Utf8.encode ((Json.obj [("key.kind", .str "source.lang.swift.decl.class"),
      ("key.name", .str "C"), ("key.substructure", .int 5)]).render .oneLine)) []

/-- The ids of these units, in any directory that is not skipped. -/
theorem findUnits_threeUnits (skip : List String) : findUnits ⟨"/", ["app"]⟩
    [("A.swift", .file []), ("B.swift", .file []), ("C.swift", .file [])] [.swift, .objc] skip =
      ["A.swift", "B.swift", "C.swift"].map fun n => ⟨⟨"/", ["app", n]⟩, n, .swift⟩ := by
  have hplaces : entryPlaces skip [] [("A.swift", .file []), ("B.swift", .file []),
      ("C.swift", .file [])] = [["A.swift"], ["B.swift"], ["C.swift"]] := rfl
  have hunits : [["A.swift"], ["B.swift"], ["C.swift"]].filterMap
      (unitAt? ⟨"/", ["app"]⟩ [.swift, .objc]) =
        ["A.swift", "B.swift", "C.swift"].map fun n => ⟨⟨"/", ["app", n]⟩, n, .swift⟩ := by
    decide +kernel
  rw [findUnits, hplaces, hunits]
  exact List.mergeSort_of_pairwise (by decide +kernel)

/-- All of them are accounted for. -/
theorem scan_threeUnits : threeUnits.files.Regular ∧ threeUnits.workDir.Rooted ∧
    ∃ found, scan { parsers := { requireProject := false } } threeUnits (Path.ofText "app") =
        .ok found ∧
      found.Accounts threeUnits.host threeUnits.outcome
        (["A.swift", "B.swift", "C.swift"].map fun n => ⟨⟨"/", ["app", n]⟩, n, .swift⟩) := by
  have hfiles : threeUnits.files.Regular := by
    have hnames : ∀ n ∈ ["app", "A.swift", "B.swift", "C.swift"], IsEntryName n := by
      unfold IsEntryName
      decide
    refine .dir (by simp) (by simpa using hnames "app" (by simp)) ?_
    rw [List.forall_mem_singleton]
    exact .dir (by simp) (by simpa using fun n hn => hnames n (List.mem_cons_of_mem _ hn))
      (by simp [FileTree.Regular.file])
  have hdir : threeUnits.workDir.Rooted := Or.inl rfl
  have hroot : threeUnits.workDir.resolve (Path.ofText "app") = ⟨"/", ["app"]⟩ := by
    decide +kernel
  have hexpand : (Path.ofText "app").expand threeUnits.host = .ok (Path.ofText "app") := by
    decide +kernel
  have hnull : (Path.ofText "app").hasNull = false := by decide +kernel
  have hlong : threeUnits.files.refusesPath .top ⟨"/", ["app"]⟩ = false := by decide +kernel
  have hentries : threeUnits.files.entriesAt? ⟨"/", ["app"]⟩ =
      some [("A.swift", .file []), ("B.swift", .file []), ("C.swift", .file [])] := rfl
  have hparse : (parseAll threeUnits.host { requireProject := false } threeUnits.installed
      threeUnits.outcome
      (["A.swift", "B.swift", "C.swift"].map fun n => ⟨⟨"/", ["app", n]⟩, n, .swift⟩)).toOption.isSome := by
    decide +kernel
  have hscan : ∃ found, scan { parsers := { requireProject := false } } threeUnits
      (Path.ofText "app") = .ok found := by
    unfold scan
    rw [hexpand]
    dsimp only
    rw [hroot, hnull, hlong, hentries]
    dsimp only
    unfold scanEntries
    dsimp only
    rw [findUnits_threeUnits, Bool.and_false]
    obtain ⟨run, hrun⟩ := exists_ok_of_isSome hparse
    rw [hrun]
    exact ⟨_, rfl⟩
  obtain ⟨found, hfound⟩ := hscan
  obtain ⟨target, entries, htarget, hat, haccounts, hpath, -⟩ := scan_accounts hfiles hdir hfound
  obtain rfl := Except.ok.inj (hexpand.symm.trans htarget)
  rw [hpath, hroot] at hat haccounts
  obtain rfl := Option.some.inj (hentries.symm.trans hat)
  rw [findUnits_threeUnits] at haccounts
  exact ⟨hfiles, hdir, found, hfound, haccounts⟩

end DeclGraph
