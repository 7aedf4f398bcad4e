/-
  Lists that are shortened on the command line.

  A list that is shortened shows its first items and says how many more there are.

  * `Counts`: the items are the first ones, and when they and the number make up the list;
  * `Writes`: a part of a command that only writes lines of the answer;
  * `explanationLines_shows` and `Command.run_overview`: the lists of a text;
  * `shortened_lists_build` joins the lists of the server and of the command line, for built
    graphs.
-/
import DeclGraph.Proofs.Cli.Search
import DeclGraph.Proofs.Server.Cut
import DeclGraph.Proofs.Snapshot.Reopened

namespace DeclGraph

namespace Cli

/-! ## Counting the rest -/

/-- The front of a list with the number of the items that are said to follow.  It is too large if
    the limit is negative. -/
structure Counts {α : Type*} (limit : Int) (full front : List α) (rest : Int) : Prop where
  front_prefix : front <+: full
  sum_iff : front.length + rest = full.length ↔ 0 ≤ limit ∨ full = []

/-- The number that is said to follow. -/
def restCount (limit : Int) (count : Nat) : Int := if limit < count then count - limit else 0

theorem counts_upTo {α : Type*} (limit : Int) {full : List α} (h : full ≠ []) :
    Counts limit full (upTo limit full) (restCount limit full.length) := by
  refine ⟨ upTo_prefix _ _, ?_⟩
  have hcount : 0 < full.length := List.length_pos_iff.2 h
  rw [restCount, length_upTo, or_iff_left h]
  split <;> split <;> omega

/-- What is said in a line of its own. -/
def restLines (rest : Int) : List String :=
  if rest = 0 then [] else ["  ... +" ++ toString rest ++ " more"]

/-- What is said after names. -/
def restText (rest : Int) : String :=
  if rest = 0 then "" else " +" ++ toString rest ++ " more"

theorem moreLines_eq (limit : Int) (count : Nat) :
    moreLines limit count = restLines (restCount limit count) := by
  rw [moreLines, restLines, restCount]
  split
  · rw [if_neg (by omega)]
  · rw [if_pos rfl]

theorem nameList_eq (names : List String) (limit : Int) (h : names ≠ []) :
    Wording.nameList names limit =
      ", ".intercalate (upTo limit names) ++ restText (restCount limit names.length) := by
  rw [Wording.nameList, if_neg h, restText, restCount]
  split
  · rw [if_neg (by omega)]
    simp only [String.append_assoc]
  · rw [if_pos rfl, String.append_empty]

/-- A list under a heading with its length: a line for each item that is shown, and the number of
    the others.  An empty list is left out. -/
def ListedUnder (label : String) (limit : Int) (full lines : List String) : Prop :=
  if full = [] then lines = [] else ∃ front rest, Counts limit full front rest ∧
    lines = heading label full.length :: front ++ restLines rest

/-- Names in one line, and the number of the others. -/
def NamedAfter (label : String) (limit : Int) (names lines : List String) : Prop :=
  if names = [] then lines = [] else ∃ front rest, Counts limit names front rest ∧
    lines = [label ++ (", ".intercalate front ++ restText rest)]

theorem listedUnder_cappedLines (label : String) (limit : Int) {full : List String}
    (h : full ≠ []) :
    ListedUnder label limit full (heading label full.length :: cappedLines limit full) := by
  rw [ListedUnder, if_neg h]
  refine ⟨_, _, counts_upTo limit h, ?_⟩
  rw [cappedLines, moreLines_eq, List.cons_append]

theorem listedUnder_memberLines (label : String) (members : List Member) (limit : Int) :
    ListedUnder label limit (members.map memberLine) (memberLines label members limit) := by
  by_cases h : members = []
  · rw [ListedUnder, memberLines, if_pos (by rw [h]; rfl), if_pos h]
  · have hfull : members.map memberLine ≠ [] := by rwa [ne_eq, List.map_eq_nil_iff]
    rw [memberLines, if_neg h, ← List.length_map (f := memberLine)]
    exact listedUnder_cappedLines label limit hfull

theorem namedAfter_nameList (label : String) (limit : Int) (names : List String) :
    NamedAfter label limit names
      (if names = [] then [] else [label ++ Wording.nameList names limit]) := by
  by_cases h : names = []
  · rw [NamedAfter, if_pos h, if_pos h]
  · rw [NamedAfter, if_neg h, if_neg h]
    exact ⟨_, _, counts_upTo limit h, by rw [nameList_eq names limit h]⟩

/-! ## Explanations -/

theorem joined_map_str (names : List String) :
    joined (names.map .str) = .ok (", ".intercalate names) := by
  rw [joined, bind_eq_ok]
  exact ⟨names, mapM_map_self fun _ _ => rfl, rfl⟩

/-- The lists in the lines of an explanation: the members of each role, and the units that refer
    to the name. -/
def ShownIn (e : Explanation) (limits : Limits) (lines : List String) : Prop :=
  ∃ opening properties methods initializers inheritors extensions references closing,
    lines = opening ++ properties ++ methods ++ initializers ++ inheritors ++ extensions ++
      references ++ closing ∧
    ListedUnder "Properties" limits.membersShown (e.members.properties.map memberLine)
      properties ∧
    ListedUnder "Methods" limits.membersShown (e.members.methods.map memberLine) methods ∧
    ListedUnder "Initializers" limits.membersShown (e.members.initializers.map memberLine)
      initializers ∧
    NamedAfter "Referenced in: " limits.referencesShown e.usages.referencedIn references

/-- **The lines of an explanation show its lists.** -/
theorem exists_explanationLines {e : Explanation}
    (h : ∀ x ∈ e.usages.extendedIn, ∃ names : List String, x.conformances = names.map .str)
    (limits : Limits) : ∃ lines, explanationLines limits e = .ok lines ∧ ShownIn e limits lines := by
  obtain ⟨extensions, hextensions⟩ : ∃ lines, e.usages.extendedIn.mapM extensionLine = .ok lines :=
    exists_mapM_eq_ok.2 fun x hx => by
      obtain ⟨names, hnames⟩ := h x hx
      rw [extensionLine, hnames, joined_map_str]
      exact ⟨_, rfl⟩
  rw [explanationLines, usageLines, hextensions]
  refine ⟨_, rfl, ?_⟩
  simp only [← List.append_assoc]
  exact ⟨_, _, _, _, _, _, _, _, rfl, listedUnder_memberLines _ _ _,
    listedUnder_memberLines _ _ _, listedUnder_memberLines _ _ _, namedAfter_nameList _ _ _⟩

/-- A command explains a name in such lines. -/
theorem Command.run_explain {t : Terminal} {snapshot : Option Path} {path : Path}
    (hpath : t.SnapshotAt snapshot path) {g : Graph}
    (hload : loadSnapshot t.host path t.files t.workDir = .ok g) {c : Config}
    (hconfig : Config.resolve t.sources t.workDir = .ok c) {name : String} {e : Explanation}
    (he : g.explain name = .ok (some e)) {lines : List String}
    (hlines : explanationLines c.limits e = .ok lines) :
    (Command.explain name snapshot false).run t =
      (.ok (), { output := lines, files := t.files }) := by
  have hrun : runExplain t name snapshot false = say lines := by
    rw [runExplain, Terminal.graph_eq hpath hload, Terminal.config, Terminal.configAt, hconfig]
    change (orCrash (g.explain name) >>= _) = _
    rw [he]
    change (orCrash (explanationLines c.limits e) >>= _) = _
    rw [hlines]
    rfl
  rw [run, toRun, hrun]
  rfl

/-! ## Writing -/

/-- A part of a command that only writes lines of the answer. -/
def Writes (r : Run Unit) (lines : List String) : Prop :=
  ∀ t : Transcript, r.run t = (.ok (), { t with output := t.output ++ lines })

theorem writes_say (lines : List String) : Writes (say lines) lines := fun _ => rfl

theorem Writes.bind {r r' : Run Unit} {lines lines' : List String} (h : Writes r lines)
    (h' : Writes r' lines') : Writes (r >>= fun _ => r') (lines ++ lines') := by
  intro t
  have hfirst : r t = _ := h t
  have hsecond : r' _ = _ := h' { t with output := t.output ++ lines }
  rw [List.append_assoc] at hsecond
  change StateT.bind r (ExceptT.bindCont fun _ => r') t = _
  rw [StateT.bind, hfirst]
  exact hsecond

/-- What a loop writes for all items. -/
theorem writes_forIn {α : Type} {xs : List α} {f : α → Run Unit} {lines : α → List String}
    (h : ∀ x ∈ xs, Writes (f x) (lines x)) :
    Writes (forIn xs PUnit.unit fun x _ => do f x; pure (.yield PUnit.unit))
      (xs.flatMap lines) := by
  induction xs with
  | nil =>
    intro t
    rw [List.forIn_nil, List.flatMap_nil, List.append_nil]
    rfl
  | cons x xs ih =>
    have hrest := ih fun y hy => h y (List.mem_cons_of_mem x hy)
    rw [List.forIn_cons, List.flatMap_cons, bind_assoc]
    simp only [pure_bind]
    exact (h x List.mem_cons_self).bind hrest

theorem map_upTo {α β : Type*} (f : α → β) (limit : Int) (xs : List α) :
    (upTo limit xs).map f = upTo limit (xs.map f) := by
  unfold upTo
  rw [List.length_map]
  split <;> rw [List.map_take]

/-- A section lists the symbols of a kind under a heading. -/
theorem writes_saySection {symbols : List Symbol} {line : Symbol → String}
    (hline : ∀ s ∈ symbols, symbolLine s = .ok (line s)) (limit : Int) (kind : SymbolKind) :
    Writes (saySection limit kind symbols)
      (heading (capitalized kind.bucket) symbols.length ::
        cappedLines limit (symbols.map line)) := by
  have hitems : Writes (forIn (upTo limit symbols) PUnit.unit fun s _ => do
      say [← orCrash (symbolLine s)]
      pure (.yield PUnit.unit)) ((upTo limit symbols).map line) := by
    have hone (s : Symbol) (hs : s ∈ upTo limit symbols) :
        Writes (orCrash (symbolLine s) >>= fun l => say [l]) [line s] := by
      rw [hline s (( upTo_prefix limit symbols).subset hs)]
      exact writes_say [line s]
    have hloop := writes_forIn hone
    simp only [bind_assoc] at hloop
    rwa [← List.map_eq_flatMap] at hloop
  rw [cappedLines, ← map_upTo, List.length_map]
  exact (writes_say _).bind (hitems.bind (writes_say _))

/-- A command lists the symbols of a unit in such sections. -/
theorem Command.run_overview {t : Terminal} {snapshot : Option Path} {path : Path}
    (hpath : t.SnapshotAt snapshot path) {g : Graph}
    (hload : loadSnapshot t.host path t.files t.workDir = .ok g) {c : Config}
    (hconfig : Config.resolve t.sources t.workDir = .ok c) {fragment unit : String}
    (hunit : (g.overview fragment).hits = [unit]) {line : Symbol → String}
    (hline : ∀ sect ∈ (g.overview fragment).filled, ∀ s ∈ sect.2, symbolLine s = .ok (line s)) :
    (Command.overview fragment snapshot false).run t =
      (.ok (), {
        output := unit :: (g.overview fragment).filled.flatMap fun sect =>
          heading (capitalized sect.1.bucket) sect.2.length ::
            cappedLines c.limits.overviewItems (sect.2.map line)
        files := t.files }) := by
  have hsection (sect : SymbolKind × List Symbol) (hsect : sect ∈ (g.overview fragment).filled) :=
    writes_saySection (hline sect hsect) c.limits.overviewItems sect.1
  have hwrites := (writes_say [unit]).bind (writes_forIn hsection)
  have hrun : runOverview t fragment snapshot false = (say [unit] >>= fun _ =>
      forIn (g.overview fragment).filled PUnit.unit fun sect _ => do
        saySection c.limits.overviewItems sect.1 sect.2
        pure (.yield PUnit.unit)) := by
    rw [runOverview, Terminal.graph_eq hpath hload, Terminal.config, Terminal.configAt, hconfig]
    simp only [hunit, pure_bind, bind_pure_unit, Bool.false_eq_true, if_false]
  rw [run, toRun, hrun, hwrites]
  rfl

end Cli

/-! ## Built graphs -/

namespace Graph

variable {g : Graph}

/-- What an explanation says about extensions are supertypes of symbols of the graph. -/
theorem exists_of_mem_extendedIn {name : String} {e : Explanation}
    (he : g.explain name = .ok (some e)) {x : ExtensionSite} (hx : x ∈ e.usages.extendedIn) :
    ∃ s ∈ g.symbols, x.conformances = s.inheritedTypes := by
  obtain ⟨found, -, he⟩ := bind_eq_ok.1 he
  cases found with
  | none => cases he
  | some found =>
    obtain ⟨inherits, -, he⟩ := bind_eq_ok.1 he
    obtain ⟨members, -, he⟩ := bind_eq_ok.1 he
    obtain ⟨usages, husages, he⟩ := bind_eq_ok.1 he
    obtain rfl := Option.some.inj (Except.ok.inj he)
    obtain ⟨references, -, husages⟩ := bind_eq_ok.1 husages
    obtain rfl := Except.ok.inj husages
    obtain ⟨⟨unit, data⟩, hentry, hx⟩ := List.mem_flatMap.1 hx
    obtain ⟨s, hs, rfl⟩ := List.mem_map.1 hx
    have hunit := List.mem_of_mem_filter hentry
    exact ⟨s, mem_symbols_of_unit hunit (List.mem_of_mem_filter hs), rfl⟩

/-- What an overview lists are symbols of the graph. -/
theorem mem_symbols_of_mem_filled {fragment : String} {sect : SymbolKind × List Symbol}
    (hsect : sect ∈ (g.overview fragment).filled) {s : Symbol} (hs : s ∈ sect.2) :
    s ∈ g.symbols := by
  have hsect := List.mem_of_mem_filter hsect
  simp only [overview] at hsect
  split at hsect
  · rename_i unit _
    rw [sectionsOf] at hsect
    split at hsect
    · rename_i data hdata
      obtain ⟨kind, -, rfl⟩ := List.mem_map.1 hsect
      exact mem_symbols_of_unit ((Table.lookup_eq_some_iff_mem g.files.nodup).1 hdata) hs
    · cases hsect
  · cases hsect

theorem Textual.exists_symbolLine (hg : g.Textual) {s : Symbol} (hs : s ∈ g.symbols) :
    ∃ line, Cli.symbolLine s = .ok line := by
  obtain ⟨names, hnames⟩ := hg.supertypes s hs
  rw [Cli.symbolLine, hnames, Cli.joined_map_str]
  exact ⟨_, rfl⟩

/-- **A command that explains a name shows the lists of the explanation.** -/
theorem Textual.run_explain (hg : g.Textual) {t : Cli.Terminal} {snapshot : Option Path}
    {path : Path} (hpath : t.SnapshotAt snapshot path)
    (hload : loadSnapshot t.host path t.files t.workDir = .ok g) {c : Config}
    (hconfig : Config.resolve t.sources t.workDir = .ok c) {name : String} {e : Explanation}
    (he : g.explain name = .ok (some e)) : ∃ lines,
      (Cli.Command.explain name snapshot false).run t =
        (.ok (), { output := lines, files := t.files }) ∧ Cli.ShownIn e c.limits lines := by
  have htexts (x : ExtensionSite) (hx : x ∈ e.usages.extendedIn) :
      ∃ names : List String, x.conformances = names.map .str := by
    obtain ⟨s, hs, hsame⟩ := exists_of_mem_extendedIn he hx
    exact hsame ▸ hg.supertypes s hs
  obtain ⟨lines, hlines, hshown⟩ := Cli.exists_explanationLines htexts c.limits
  exact ⟨lines, Cli.Command.run_explain hpath hload hconfig he hlines, hshown⟩

/-- **A command that lists the symbols of a unit shows a list for each kind.** -/
theorem Textual.run_overview (hg : g.Textual) {t : Cli.Terminal} {snapshot : Option Path}
    {path : Path} (hpath : t.SnapshotAt snapshot path)
    (hload : loadSnapshot t.host path t.files t.workDir = .ok g) {c : Config}
    (hconfig : Config.resolve t.sources t.workDir = .ok c) {fragment unit : String}
    (hunit : (g.overview fragment).hits = [unit]) : ∃ blocks,
      (Cli.Command.overview fragment snapshot false).run t =
        (.ok (), { output := unit :: blocks.flatten, files := t.files }) ∧
      List.Forall₂ (fun sect block => ∃ lines, sect.2.mapM Cli.symbolLine = .ok lines ∧
        Cli.ListedUnder (Cli.capitalized sect.1.bucket) c.limits.overviewItems lines block)
        (g.overview fragment).filled blocks := by
  choose! line hline using fun s (hs : s ∈ g.symbols) => hg.exists_symbolLine hs
  have hlines (sect : SymbolKind × List Symbol) (hsect : sect ∈ (g.overview fragment).filled)
      (s : Symbol) (hs : s ∈ sect.2) : Cli.symbolLine s = .ok (line s) :=
    hline s (mem_symbols_of_mem_filled hsect hs)
  refine ⟨_, Cli.Command.run_overview hpath hload hconfig hunit hlines, ?_⟩
  rw [List.forall₂_map_right_iff, List.forall₂_same]
  intro sect hsect
  have hne : sect.2.map line ≠ [] := by
    have hfilled := (List.mem_filter.1 hsect).2
    simpa using hfilled
  refine ⟨sect.2.map line, mapM_eq_ok.2 ?_, ?_⟩
  · rw [List.forall₂_map_right_iff, List.forall₂_same]
    exact hlines sect hsect
  · rw [← List.length_map (f := line)]
    exact Cli.listedUnder_cappedLines _ _ hne

end Graph

/-- **Lists that are shortened show their first items, and say how long they are.**  With a negative
    limit the server says of an empty list that items are missing, and the command line counts too
    many items after those that it shows; in all other cases the flag is right and the number makes
    up the list. -/
theorem shortened_lists_build {units : List RawUnit} {root? : Option String} {now : String}
    {g : Graph} (hg : (build units (.ofText? root?) (.str now)).1 = g) :
    (∀ (s : Server) (around : Surroundings), s.session.current = .ok g →
      (∀ name, ∃ e? result, g.explain name = .ok e? ∧
        s.call around (.explainSymbol name) = (s, .ok result) ∧
        ∀ e ∈ e?, e.CutIn s.config.limits result) ∧
      ∀ fragment, ∃ result, s.call around (.fileOverview fragment) = (s, .ok result) ∧
        (g.overview fragment).CutIn s.config.limits result) ∧
    ∀ (t : Cli.Terminal) (h : Host) files path snapshot (c : Config),
      saveSnapshot h g path files t.workDir = .ok t.files → t.SnapshotAt snapshot path →
      Config.resolve t.sources t.workDir = .ok c →
      ∃ saved, loadSnapshot t.host path t.files t.workDir = .ok saved ∧
        (∀ name, ∃ e?, saved.explain name = .ok e? ∧ ∀ e ∈ e?, ∃ lines,
          (Cli.Command.explain name snapshot false).run t =
            (.ok (), { output := lines, files := t.files }) ∧ Cli.ShownIn e c.limits lines) ∧
        ∀ fragment unit, (saved.overview fragment).hits = [unit] → ∃ blocks,
          (Cli.Command.overview fragment snapshot false).run t =
            (.ok (), { output := unit :: blocks.flatten, files := t.files }) ∧
          List.Forall₂ (fun sect block => ∃ lines, sect.2.mapM Cli.symbolLine = .ok lines ∧
            Cli.ListedUnder (Cli.capitalized sect.1.bucket) c.limits.overviewItems lines block)
            (saved.overview fragment).filled blocks := by
  have hbuilt : g.Built := hg ▸ built_build
  have hroot : g.repoPath = .ofText? root? := by rw [← hg]; rfl
  have htime : g.generatedAt = .str now := by rw [← hg]; rfl
  refine ⟨fun s around hcurrent => ⟨fun name => ?_, fun fragment => ?_⟩, ?_⟩
  · obtain ⟨e?, he⟩ := hbuilt.textual.exists_explain name
    refine ⟨e?, explanationResult s.config.limits name e?, he, ?_, fun e hsome => ?_⟩
    · simp only [Server.call, Server.runTool, Server.asked, hcurrent, he, map_ok]
      rfl
    · rw [Option.mem_def.1 hsome]
      exact explanationResult_cuts s.config.limits name e
  · refine ⟨_, ?_, overviewResult_cuts s.config.limits (g.overview fragment)⟩
    simp only [Server.call, Server.runTool, Server.asked, hcurrent]
    rfl
  · intro t h files path snapshot c hsave hpath hconfig
    have hload := hbuilt.loadSnapshot_resaved (h := t.host) (hroot ▸ Json.plain_ofText? root?)
      (htime ▸ .str now) hsave
    have htextual := hbuilt.textual.resaved
    refine ⟨g.resaved, hload, fun name => ?_,
      fun fragment unit hunit => htextual.run_overview hpath hload hconfig hunit⟩
    obtain ⟨e?, he⟩ := htextual.exists_explain name
    refine ⟨e?, he, fun e hsome => htextual.run_explain hpath hload hconfig ?_⟩
    rw [he, Option.mem_def.1 hsome]

/-- A unit that declares one class without members. -/
def memberless : RawUnit where
  id := "A.swift"
  dialect := .str "swift"
  dump := .obj [("key.kind", .str "source.lang.swift.decl.class"), ("key.name", .str "A")]

/-- A directory with a snapshot, and a limit below zero in the environment. -/
def belowZero (snapshot : Octets) : Cli.Terminal where
  files := .dir [("app.json", .file snapshot)]
  workDir := .top
  globalFile := Path.ofText "/global.yaml"
  environment := [("SYMGRAPH__LIMITS__OVERVIEW_ITEMS", "-1")]

theorem resolve_belowZero (snapshot : Octets) :
    Config.resolve (belowZero snapshot).sources (belowZero snapshot).workDir =
      .ok { limits := { overviewItems := -1 } } := by
  have huser : UserConfig.load {} .top (belowZero snapshot).files = .ok {} := rfl
  have hglobal : Config.membersOfFile {} (Path.ofText "/global.yaml") (belowZero snapshot).files =
      .ok [] := rfl
  have hlayer : (belowZero snapshot).sources.fileLayer .top = .ok [] := by
    rw [Config.Sources.fileLayer]
    change ((UserConfig.load {} .top (belowZero snapshot).files).mapError .fault >>= fun _ =>
      Config.membersOfFile {} (Path.ofText "/global.yaml") (belowZero snapshot).files >>= _) = _
    rw [huser, hglobal]
    rfl
  change Config.resolve (belowZero snapshot).sources .top = _
  rw [Config.resolve, hlayer]
  rfl

/-- With negative limits the server says that properties of that class are missing, and the command
    line does not count one class. -/
theorem shortened_lists_memberless : ∃ (g : Graph) (s : Server) (t : Cli.Terminal) (c : Config),
    (build [memberless] (.ofText? none) (.str "")).1 = g ∧ s.session.current = .ok g ∧
    saveSnapshot {} g (Path.ofText "app.json") .empty t.workDir = .ok t.files ∧
    Config.resolve t.sources t.workDir = .ok c ∧
    (∃ result ms, s.call {} (.explainSymbol "A") = (s, .ok result) ∧
      result.at? ["members"] = some (.obj ms) ∧
      ("properties", CutList.toJson ⟨[], 0, true⟩) ∈ ms) ∧
    ∃ front rest, (Cli.Command.overview "A" (some (Path.ofText "app.json")) false).run t =
      (.ok (), {
        output := "A.swift" :: "Classes (1):" :: (front ++ Cli.restLines rest)
        files := t.files }) ∧ front.length + rest ≠ 1 := by
  let g := (build [memberless] (.ofText? none) (.str "")).1
  let s : Server := { config := { limits := { membersShown := -1 } }, session := ⟨some g⟩ }
  have hbuilt : g.Built := built_build
  have hplaceless : ∀ e ∈ g.files.entries, ∀ kind ∈ SymbolKind.all, ∀ s ∈ e.2.symbols.bucket kind,
      s.offset = .null ∧ s.length = .null := by
    decide +kernel
  obtain ⟨text, htext⟩ := (hbuilt.toText_cases (Json.plain_ofText? none) (.str "") {}).1.2
    (Graph.extents_of_placeless hplaceless)
  let t := belowZero (Utf8.encode text)
  let c : Config := { limits := { overviewItems := -1 } }
  have hsave : saveSnapshot {} g (Path.ofText "app.json") .empty t.workDir = .ok t.files :=
    saveSnapshot_eq_ok_iff.2 ⟨accepts_empty.1, text, htext, replaceFile_empty _⟩
  obtain ⟨hserver, hterminal⟩ := shortened_lists_build (g := g) rfl
  refine ⟨g, s, t, c, rfl, rfl, hsave, resolve_belowZero _, ?_, ?_⟩
  · have hproperties : (g.explain "A").toOption.map (·.map (·.members.properties)) = some (some []) := by
      decide +kernel
    obtain ⟨e?, result, he, hcall, hcuts⟩ := (hserver s {} rfl).1 "A"
    obtain ⟨e, rfl, hnone⟩ : ∃ e, e? = some e ∧ e.members.properties = [] := by
      rw [he] at hproperties
      exact Option.map_eq_some_iff.1 (Option.some.inj hproperties)
    obtain ⟨ms, hms, hall⟩ := (hcuts e rfl).members
    obtain ⟨⟨key, value⟩, rest, ⟨rfl, cut, rfl, hcut⟩, -, rfl⟩ := List.forall₂_cons_left_iff.1 hall
    rw [hnone] at hcut
    obtain ⟨items, total, truncated⟩ := cut
    obtain rfl : items = [] := List.prefix_nil.1 hcut.front
    obtain rfl : total = 0 := hcut.total_eq
    obtain rfl : truncated = true := by
      have hwrong : (truncated = true ↔ 0 < 0) ↔ (0 : Int) ≤ -1 ∨ ([] : List Json) ≠ [] :=
        hcut.truncated_iff
      simpa using hwrong
    exact ⟨result, _, hcall, hms, List.mem_cons_self⟩
  · have hload : loadSnapshot t.host (Path.ofText "app.json") t.files t.workDir = .ok g.resaved :=
      hbuilt.loadSnapshot_resaved (Json.plain_ofText? none) (.str "") hsave
    have hhits : (g.resaved.overview "A").hits = ["A.swift"] := by decide +kernel
    have hfilled : (g.resaved.overview "A").filled.map (fun sect => (sect.1, sect.2.length)) =
        [(.class_, 1)] := by decide +kernel
    obtain ⟨saved, hsaved, -, hoverview⟩ := hterminal t {} .empty _ _ c hsave (.named _)
      (resolve_belowZero _)
    obtain rfl := Except.ok.inj (hload.symm.trans hsaved)
    obtain ⟨blocks, hrun, hblocks⟩ := hoverview "A" "A.swift" hhits
    obtain ⟨sect, hone, hsect⟩ := List.map_eq_singleton_iff.1 hfilled
    rw [hone] at hblocks
    obtain ⟨block, rest, ⟨lines, hlines, hlisted⟩, hrest, rfl⟩ :=
      List.forall₂_cons_left_iff.1 hblocks
    obtain rfl := List.forall₂_nil_left_iff.1 hrest
    have hlength : lines.length = 1 :=
      (mapM_eq_ok.1 hlines).length_eq.symm.trans (congrArg Prod.snd hsect)
    rw [Cli.ListedUnder, if_neg (by rintro rfl; cases hlength), hlength, congrArg Prod.fst hsect]
      at hlisted
    obtain ⟨front, rest, hcounts, rfl⟩ := hlisted
    refine ⟨front, rest, ?_, fun hsum => ?_⟩
    · rw [hrun, List.flatten_cons, List.flatten_nil, List.append_nil]
      rfl
    · have hsign : (0 : Int) ≤ -1 ∨ lines = [] := hcounts.sum_iff.1 (by rw [hsum, hlength]; rfl)
      rcases hsign with hsign | rfl
      · omega
      · cases hlength

end DeclGraph
