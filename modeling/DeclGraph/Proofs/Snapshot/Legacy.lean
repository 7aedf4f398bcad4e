/-
  Reading documents of earlier releases.

  Such a document has no version.  Its units and the files of its symbols are absolute paths,
  and the kind of a symbol is the tag of its node.

  * `legacyDocument` edits a document into the form of earlier releases;
  * `Symbol.ofJson_legacySymbol`, … read the edited parts: what they say but for the absolute
    paths;
  * `ofDocument_legacyDocument_build`: both forms of the document of a built graph are read as the
    same graph.
-/
import DeclGraph.Proofs.Snapshot.Build

namespace DeclGraph

/-! ## Edits -/

namespace Json

/-- Changes the values of an object by their keys. -/
def mapMembers (f : String → Json → Json) : Json → Json
  | .obj ms => .obj (ms.map fun m => (m.1, f m.1 m.2))
  | j => j

/-- Changes every value of an object or a list. -/
def mapValues (f : Json → Json) : Json → Json
  | .obj ms => .obj (ms.map fun m => (m.1, f m.2))
  | .arr items => .arr (items.map f)
  | j => j

/-- Changes the value of one key of an object. -/
def mapMember (key : String) (f : Json → Json) : Json → Json :=
  mapMembers fun k value => if k = key then f value else value

/-- Takes a key out of an object. -/
def without (key : String) : Json → Json
  | .obj ms => .obj (ms.filter fun m => m.1 ≠ key)
  | j => j

/-- Puts a text before every key of an object. -/
def keysUnder (head : String) : Json → Json
  | .obj ms => .obj (ms.map fun m => (head ++ m.1, m.2))
  | j => j

/-- Puts a text before a text. -/
def under (head : String) : Json → Json
  | .str s => .str (head ++ s)
  | j => j

end Json

/-- The value of a key of a symbol in the form of earlier releases: the file is an absolute
    path, and the kind is the tag. -/
def legacyPart (head : String) (tag : Json) (key : String) (value : Json) : Json :=
  if key = "file" then value.under head else if key = "kind" then tag else value

/-- A symbol in the form of earlier releases. -/
def legacySymbol (head : String) (symbol : Json) : Json :=
  (symbol.mapMembers (legacyPart head (symbol.valueAt "rawKind"))).without "rawKind"

/-- The data of a unit in the form of earlier releases. -/
def legacyUnit (head : String) : Json → Json :=
  .mapMember "symbols" (.mapValues (.mapValues (legacySymbol head)))

/-- An entry of the type map in the form of earlier releases. -/
def legacyEntry (head : String) : Json → Json := .mapMember "symbol" (legacySymbol head)

/-- A document in the form of earlier releases, with the text that stands before all paths. -/
def legacyDocument (head : String) (document : Json) : Json :=
  (document.mapMembers fun key value =>
    if key = "files" then (value.mapValues (legacyUnit head)).keysUnder head
    else if key = "dependencyGraph" then value.mapMember "typeMap" (.mapValues (legacyEntry head))
    else value).without "formatVersion"

/-! ## Absolute paths -/

/-- A symbol with an absolute path. -/
def Symbol.under (head : String) (s : Symbol) : Symbol := { s with file := s.file.under head }

/-- The data of a unit with absolute paths. -/
def UnitData.under (head : String) (u : UnitData) : UnitData :=
  { u with symbols := ⟨fun k => (u.symbols.bucket k).map (Symbol.under head)⟩ }

/-- An entry of the type map with an absolute path of its symbol. -/
def TypeMapEntry.under (head : String) (e : TypeMapEntry) : TypeMapEntry :=
  { e with symbol := e.symbol.under head }

/-- Absolute paths are made relative again. -/
theorem Symbol.rebase_under (head : String) {s : Symbol} (h : ∃ path, s.file = .str path) :
    (s.under head).rebase head = .ok s := by
  obtain ⟨path, hpath⟩ := h
  rw [rebase, under, hpath]
  simp only [Json.under, fileBelowRoot, Text.dropPrefix_append, ok_bind, ← hpath]
  rfl

theorem UnitData.rebase_under (head : String) {u : UnitData}
    (h : ∀ k, ∀ s ∈ u.symbols.bucket k, ∃ path, s.file = .str path) :
    (u.under head).rebase head = .ok u := by
  have hsymbols : (u.under head).symbols.mapSymbolsM (Symbol.rebase head) = .ok u.symbols :=
    SymbolTable.ofBucketsM_eq_ok.2 fun k =>
      mapM_map_self fun s hs => Symbol.rebase_under head (h k s hs)
  rw [rebase, hsymbols]
  rfl

theorem TypeMapEntry.rebase_under (head : String) {e : TypeMapEntry}
    (h : ∃ path, e.symbol.file = .str path) : (e.under head).rebase head = .ok e := by
  rw [rebase, show (e.under head).symbol.rebase head = .ok e.symbol from
    Symbol.rebase_under head h]
  rfl

/-! ## Reading the parts -/

/-- The tag of a symbol is a text that is not the name of a kind. -/
def Symbol.PlainlyTagged (s : Symbol) : Prop :=
  ∃ raw, s.rawKind = .str raw ∧ raw ≠ "" ∧ ∀ k : SymbolKind, raw ≠ k.name

theorem Symbol.PlainlyTagged.storedKind?_eq {s : Symbol} (h : s.PlainlyTagged) :
    storedKind? s.rawKind = .ok none := by
  obtain ⟨raw, hraw, -, hkinds⟩ := h
  have hnone : SymbolKind.ofName? raw = none :=
    List.find?_eq_none.2 fun k _ => by simpa using (hkinds k).symm
  rw [hraw, storedKind?]
  simp [Json.isCollection, Json.text?, hnone]

/-- The members of a symbol in the form of earlier releases. -/
theorem Symbol.lookup_legacy (head : String) (s : Symbol) : ∃ ms,
    legacySymbol head s.toJson = .obj ms ∧ ∀ key, ms.lookup key =
      if key = "rawKind" then none
      else (s.toMembers.lookup key).map (legacyPart head s.rawKind key) := by
  have hraw : s.toJson.valueAt "rawKind" = s.rawKind := memberOrNull_toMembers s (by decide)
  refine ⟨_, rfl, fun key => ?_⟩
  rw [Table.lookup_filter_ne, Table.lookup_map_snd, hraw]

/-- **A symbol is read back** from the form of earlier releases: its place tells the kind, and
    the stored kind is the tag. -/
theorem Symbol.ofJson_legacySymbol (head : String) {s : Symbol} (h : s.PlainlyTagged) :
    ofJson (some s.kind) (legacySymbol head s.toJson) = .ok (s.under head) := by
  obtain ⟨ms, hms, hlookup⟩ := s.lookup_legacy head
  have hsame (key : String) (hkey : key ∉ ["rawKind", "file", "kind"]) :
      ms.lookup key = s.toMembers.lookup key := by
    simp only [List.mem_cons, List.not_mem_nil, or_false, not_or] at hkey
    have hpart : legacyPart head s.rawKind key = id := by
      funext value
      rw [legacyPart, if_neg hkey.2.1, if_neg hkey.2.2, id]
    rw [hlookup, if_neg hkey.1, hpart, Option.map_id, id]
  have hoptional (key : String) (hkey : key ∉ ["rawKind", "file", "kind"])
      (hother : key ∉ ["name", "kind", "file", "inheritedTypes", "accessibility"]) :
      Json.memberOrNull key ms = Json.memberOrNull key s.optionalMembers := by
    rw [← memberOrNull_toMembers s hother, Json.memberOrNull, Json.member?, hsame key hkey]
    rfl
  have hkind : Json.memberOrNull "kind" ms = s.rawKind := by
    rw [Json.memberOrNull, Json.member?, hlookup]
    rfl
  have hraw : Json.memberOrNull "rawKind" ms = .null := by
    rw [Json.memberOrNull, Json.member?, hlookup]
    rfl
  have hfile : Json.member? "file" ms = some (s.file.under head) := by
    rw [Json.member?, hlookup]
    rfl
  have hname : Json.required "name" ms = .ok s.name := by
    rw [Json.required, Json.member?, hsame "name" (by decide)]
    rfl
  have hinherited : (Json.memberOrNull "inheritedTypes" ms).listedOrNone =
      .ok s.inheritedTypes := by
    rw [Json.memberOrNull, Json.member?, hsame "inheritedTypes" (by decide)]
    exact Json.listedOrNone_arr _
  have haccess : Access.ofJson (Json.memberOrNull "accessibility" ms) (some .internal) =
      .ok (some s.access) := by
    rw [Json.memberOrNull, Json.member?, hsame "accessibility" (by decide)]
    exact Access.ofJson_name s.access _
  have h₁ : Json.memberOrNull "typeName" ms = s.typeName := hoptional _ (by decide) (by decide)
  have h₂ : Json.memberOrNull "offset" ms = s.offset := hoptional _ (by decide) (by decide)
  have h₃ : Json.memberOrNull "length" ms = s.length := hoptional _ (by decide) (by decide)
  have h₄ : Json.memberOrNull "extendedType" ms = s.extendedType :=
    hoptional _ (by decide) (by decide)
  rw [hms]
  simp only [ofJson, Json.members, ok_bind, hkind, h.storedKind?_eq, hraw, hfile, hname,
    hinherited, haccess, h₁, h₂, h₃, h₄, Option.getD_some, Option.isSome_none, Json.truthy,
    Bool.false_eq_true, if_false]
  rfl

theorem UnitData.ofJson_legacyUnit (head : String) {u : UnitData}
    (h : ∀ k, ∀ s ∈ u.symbols.bucket k, s.kind = k ∧ s.PlainlyTagged) :
    ofJson (legacyUnit head u.toJson) = .ok (u.settled.under head) := by
  have hbuckets : (u.symbols.toJson.mapValues (.mapValues (legacySymbol head))) =
      .obj (SymbolKind.all.map fun k =>
        (k.bucket, .arr ((u.symbols.bucket k).map fun s => legacySymbol head s.toJson))) := by
    simp only [SymbolTable.toJson, Json.mapValues, List.map_map, Function.comp_def]
  have hsymbols : SymbolTable.ofMembers (SymbolKind.all.map fun k =>
      (k.bucket, .arr ((u.symbols.bucket k).map fun s => legacySymbol head s.toJson))) =
        .ok (u.settled.under head).symbols := by
    rw [SymbolTable.ofMembers, SymbolTable.ofBucketsM_eq_ok]
    intro k
    have hget : Json.memberOrNull k.bucket (SymbolKind.all.map fun k =>
        (k.bucket, .arr ((u.symbols.bucket k).map fun s => legacySymbol head s.toJson))) =
        .arr ((u.symbols.bucket k).map fun s => legacySymbol head s.toJson) := by
      cases k <;> rfl
    rw [SymbolTable.bucketOfJson, hget, Json.listedOrNone_arr, ok_bind]
    refine mapM_map_ok fun s hs => ?_
    obtain ⟨rfl, htag⟩ := h k s hs
    exact Symbol.ofJson_legacySymbol head htag
  have hsets :
      Table.mapValuesM MemberSet.ofJson (u.members.entries.map fun e => (e.1, e.2.toJson)) =
      .ok (u.settled.members.entries) :=
    mapValuesM_map_ok fun e _ => MemberSet.ofJson_toJson e.2
  have hdialect : Dialect.ofJson (.str u.dialect.name) = .ok u.dialect := by
    cases u.dialect <;> rfl
  have hunit : legacyUnit head u.toJson = .obj [("dialect", .str u.dialect.name),
      ("symbols", u.symbols.toJson.mapValues (.mapValues (legacySymbol head))),
      ("memberData", .ofTable MemberSet.toJson u.members)] := rfl
  rw [hunit, hbuckets]
  simp only [ofJson, Json.members, ok_bind, Json.member?, Json.memberOrNull, List.lookup_cons,
    String.reduceBEq, Option.getD_some, hdialect, Json.membersOrNone_obj, hsymbols,
    Json.ofTable, hsets, Table.ofList_entries]
  rfl

theorem TypeMapEntry.ofJson_legacyEntry (head : String) {e : TypeMapEntry}
    (hkind : e.symbol.kind = e.kind) (h : e.symbol.PlainlyTagged) :
    ofJson (legacyEntry head e.toJson) = .ok (e.under head) := by
  have hentry : legacyEntry head e.toJson = .obj [("file", e.file), ("kind", .str e.kind.name),
      ("symbol", legacySymbol head e.symbol.toJson)] := rfl
  have hsymbol := Symbol.ofJson_legacySymbol head h
  rw [hkind] at hsymbol
  rw [hentry]
  simp only [ofJson, Json.members, ok_bind, Json.required, Json.member?, List.lookup_cons,
    String.reduceBEq, SymbolKind.ofJson_name, hsymbol]
  rfl

/-! ## Reading the document -/

namespace Graph

variable {g : Graph}

/-- A graph with the units and the files of symbols as absolute paths. -/
theorem rebase_under (head : String) (h : ∀ s ∈ g.symbols, ∃ path, s.file = .str path)
    {units : Table UnitData} {types : Table TypeMapEntry}
    (hunits : units.entries = g.files.entries.map fun e => (e.1, e.2.under head))
    (htypes : types.entries = g.typeMap.entries.map fun e => (e.1, e.2.under head)) :
    rebase (some head) { g with files := units, typeMap := types } = .ok g := by
  have hunits' : Table.mapValuesM (UnitData.rebase head) units.entries = .ok g.files.entries := by
    rw [hunits]
    exact mapValuesM_map_self fun e he =>
      UnitData.rebase_under head fun k s hs => h s (mem_symbols_of_unit he hs)
  have htypes' : Table.mapValuesM (TypeMapEntry.rebase head) types.entries =
      .ok g.typeMap.entries := by
    rw [htypes]
    exact mapValuesM_map_self fun e he =>
      TypeMapEntry.rebase_under head (h e.2.symbol (mem_symbols_of_type he))
  simp only [rebase, hunits', htypes', ok_bind, Table.ofList_entries]
  rfl

theorem Built.kind_typeMap (hg : g.Built) {name : String} {e : TypeMapEntry}
    (h : (name, e) ∈ g.typeMap.entries) : e.symbol.kind = e.kind := by
  obtain ⟨_, _, -, s, -, -, rfl⟩ := hg.mem_typeMap h
  rfl

theorem Built.plainlyTagged (hg : g.Built)
    (htags : ∀ s ∈ g.symbols, ∀ k : SymbolKind, s.rawKind ≠ .str k.name) :
    ∀ s ∈ g.symbols, s.PlainlyTagged := by
  intro s hs
  obtain ⟨unit, data, kind, hdata, hdeclared⟩ := hg.mem_symbols hs
  obtain ⟨raw, hne, hraw⟩ := ((hg.declared unit data hdata).symbols kind s hdeclared).rawKind_spec
  refine ⟨raw, hraw, hne, fun k hk => htags s hs k ?_⟩
  rw [hraw, hk]

/-- The document in the form of earlier releases, member by member. -/
theorem legacyDocument_toDocument (head : String) (g : Graph) :
    legacyDocument head g.toDocument = .obj [
      ("repoPath", g.repoPath), ("generatedAt", g.generatedAt),
      ("files", .obj (g.files.entries.map fun e => (head ++ e.1, legacyUnit head e.2.toJson))),
      ("dependencyGraph", .obj [
        ("typeMap", .obj (g.typeMap.entries.map fun e => (e.1, legacyEntry head e.2.toJson))),
        ("edges", .arr (g.edges.map Edge.toJson))]),
      ("indexes", g.indexes.toJson)] := by
  have hfiles : ((Json.ofTable UnitData.toJson g.files).mapValues (legacyUnit head)).keysUnder head =
      .obj (g.files.entries.map fun e => (head ++ e.1, legacyUnit head e.2.toJson)) := by
    simp only [Json.ofTable, Json.mapValues, Json.keysUnder, List.map_map, Function.comp_def]
  have htypes : (Json.ofTable TypeMapEntry.toJson g.typeMap).mapValues (legacyEntry head) =
      .obj (g.typeMap.entries.map fun e => (e.1, legacyEntry head e.2.toJson)) := by
    simp only [Json.ofTable, Json.mapValues, List.map_map, Function.comp_def]
  rw [← hfiles, ← htypes]
  rfl

/-- **The document of a graph in the form of earlier releases is read back.** -/
theorem Built.ofDocument_legacyDocument (hg : g.Built) {head : String}
    (hhead : rootHead g.repoPath = some head)
    (htags : ∀ s ∈ g.symbols, ∀ k : SymbolKind, s.rawKind ≠ .str k.name) :
    ofDocument (legacyDocument head g.toDocument) = .ok g.settled := by
  have hplain := hg.plainlyTagged htags
  have hunits : Table.mapValuesM UnitData.ofJson (g.files.entries.map fun e =>
      (head ++ e.1, legacyUnit head e.2.toJson)) =
      .ok (g.files.entries.map fun e => (head ++ e.1, e.2.settled.under head)) := by
    refine mapM_map_ok fun e he => ?_
    have hread := UnitData.ofJson_legacyUnit head (u := e.2) fun k s hs =>
      ⟨((hg.declared e.1 e.2 he).symbols k s hs).kind_eq, hplain s (mem_symbols_of_unit he hs)⟩
    rw [hread]
    rfl
  have htypes : Table.mapValuesM TypeMapEntry.ofJson (g.typeMap.entries.map fun e =>
      (e.1, legacyEntry head e.2.toJson)) =
      .ok (g.typeMap.entries.map fun e => (e.1, e.2.under head)) :=
    mapValuesM_map_ok (g := fun e => legacyEntry head e.toJson) fun e he =>
      TypeMapEntry.ofJson_legacyEntry head (hg.kind_typeMap he)
        (hplain e.2.symbol (mem_symbols_of_type he))
  have hedges : (g.edges.map Edge.toJson).mapM Edge.ofJson = .ok g.edges :=
    mapM_map_self fun e _ => e.ofJson_toJson
  have hindexes := Indexes.ofMembers_toJson (rfl : g.indexes.toJson = _)
  -- the units are found by their ids again, and then the files of symbols are made relative
  have hids : (g.files.entries.map fun e => (head ++ e.1, e.2.settled.under head)).map
      (fun u => (belowRoot (some head) u.1, u.2)) =
      (g.settled.files.map fun _ => UnitData.under head).entries := by
    simp only [settled, Table.map, List.map_map, Function.comp_def, belowRoot,
      Text.dropPrefix_append]
  have hfiles : ∀ s ∈ g.settled.symbols, ∃ path, s.file = .str path := by
    intro s hs
    rw [symbols_settled] at hs
    obtain ⟨unit, data, kind, hdata, hs⟩ := hg.mem_symbols hs
    exact ⟨unit, ((hg.declared unit data hdata).symbols kind s hs).file_eq⟩
  rw [legacyDocument_toDocument, ofDocument_obj rfl rfl]
  have hentries : ofEntries [
      ("repoPath", g.repoPath), ("generatedAt", g.generatedAt),
      ("files", .obj (g.files.entries.map fun e => (head ++ e.1, legacyUnit head e.2.toJson))),
      ("dependencyGraph", .obj [
        ("typeMap", .obj (g.typeMap.entries.map fun e => (e.1, legacyEntry head e.2.toJson))),
        ("edges", .arr (g.edges.map Edge.toJson))]),
      ("indexes", g.indexes.toJson)] = .ok g.settled := by
    simp only [ofEntries, Json.memberOrNull, Json.member?, List.lookup_cons,
      String.reduceBEq, Option.getD_some, Json.membersOrNone_obj, Json.listedOrNone_arr, ok_bind,
      hhead, hunits, hids, htypes, hedges, Table.ofList_entries]
    rw [show g.indexes.toJson.membersOrNone = .ok _ from Json.membersOrNone_obj _, ok_bind,
      hindexes, ok_bind]
    have htypes' := Table.entries_ofList_of_nodup
      (g.typeMap.map fun _ => TypeMapEntry.under head).nodup
    exact rebase_under head hfiles rfl htypes'
  rw [hentries]
  rfl

end Graph

/-- **Documents of earlier releases are read as the current ones are.**  The document of a built
    graph without the version, with the root of the code base before the units and the files of
    all symbols, and with the tags in place of the kinds, is read as the same graph, with the
    units in the same order. -/
theorem ofDocument_legacyDocument_build {units : List RawUnit} {root : String} {generatedAt : Json}
    (hroot : root ≠ "") {g : Graph} (hg : (build units (.str root) generatedAt).1 = g)
    {head : String} (hhead : head = String.ofList (Text.dropEndWhile (· = '/') root.toList) ++ "/")
    (hids : ∀ unit ∈ g.files.keys, Text.startsWith unit head = false)
    (htags : ∀ s ∈ g.symbols, ∀ k : SymbolKind, s.rawKind ≠ .str k.name) :
    ∃ g', Graph.ofDocument g.toDocument = .ok g' ∧
      Graph.ofDocument (legacyDocument head g.toDocument) = .ok g' ∧
      g'.files.keys = g.files.keys := by
  have hbuilt : g.Built := hg ▸ built_build
  have hroot' : rootHead g.repoPath = some head := by
    have hpath : g.repoPath = .str root := hg ▸ rfl
    rw [hpath, hhead, rootHead, Json.nonEmptyText?, if_neg hroot]
    rfl
  refine ⟨g.settled, ?_, hbuilt.ofDocument_legacyDocument hroot' htags, ?_⟩
  · refine hbuilt.ofDocument_toDocument fun head' hhead' => ?_
    obtain rfl := Option.some.inj (hroot'.symm.trans hhead')
    exact hids
  · rw [Graph.settled, Table.keys, Table.map, List.map_map]
    rfl

/-- A unit that declares a class. -/
def oneClass : RawUnit where
  id := "A.swift"
  dialect := .str "swift"
  dump := .obj [("key.kind", .str "source.lang.swift.decl.class"), ("key.name", .str "A")]

/-- The graph of that unit is read from a document that calls it `/r/A.swift`. -/
theorem ofDocument_legacyDocument_oneClass : ∃ g g',
    (build [oneClass] (.str "/r//") .null).1 = g ∧
    (∀ s ∈ g.symbols, ∀ k : SymbolKind, s.rawKind ≠ .str k.name) ∧
    Graph.ofDocument g.toDocument = .ok g' ∧
    Graph.ofDocument (legacyDocument "/r/" g.toDocument) = .ok g' ∧
    g'.files.keys = g.files.keys := by
  have hkeys : (build [oneClass] (.str "/r//") .null).1.files.keys = ["A.swift"] := by
    decide +kernel
  have hraw : (build [oneClass] (.str "/r//") .null).1.symbols.map Symbol.rawKind =
      [.str "source.lang.swift.decl.class", .str "source.lang.swift.decl.class"] := by
    decide +kernel
  have htags : ∀ s ∈ (build [oneClass] (.str "/r//") .null).1.symbols, ∀ k : SymbolKind,
      s.rawKind ≠ .str k.name := by
    intro s hs k
    have hmem := hraw ▸ List.mem_map_of_mem (f := Symbol.rawKind) hs
    rw [show s.rawKind = .str "source.lang.swift.decl.class" by simpa using hmem]
    cases k <;> decide
  obtain ⟨g', hread, hlegacy, hfiles⟩ := ofDocument_legacyDocument_build (by decide)
    (rfl : (build [oneClass] (.str "/r//") .null).1 = _) (show "/r/" = _ by decide +kernel)
    (by rw [hkeys]; decide) htags
  exact ⟨_, g', rfl, htags, hread, hlegacy, hfiles⟩

end DeclGraph
