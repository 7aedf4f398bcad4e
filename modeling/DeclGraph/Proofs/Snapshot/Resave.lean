/-
  Writing the graph of a document again.

  Reading a document makes paths relative to its root, and leaves out what does not count as
  present in some places.  So a document that is read and written again may come out as another
  one.  It is read again then, and this goes on for as long as reading finds something to do.

  * `Graph.relocated`: what making paths relative does to a graph whose files are texts;
  * `file_of_ofDocument`: the files of a graph that was read are texts if its root is known;
  * `toDocument_resaved_iff`: when the second document is the first one;
  * `resave_ofDocument` joins these for the graphs of all documents.
-/
import DeclGraph.Proofs.Snapshot.Build

namespace DeclGraph

/-! ## Relative paths -/

/-- A stored file without the root of the code base, if it is a text. -/
def Json.relocated (head : Option String) : Json → Json
  | .str path => .str (belowRoot head path)
  | file => file

/-- A symbol with its file relative to the root. -/
def Symbol.relocated (head : Option String) (s : Symbol) : Symbol :=
  { s with file := s.file.relocated head }

/-- The data of a unit with all files of symbols relative to the root. -/
def UnitData.relocated (head : Option String) (u : UnitData) : UnitData :=
  { u with symbols := u.symbols.mapSymbols (.relocated head) }

/-- An entry of the type map with the file of its symbol relative to the root. -/
def TypeMapEntry.relocated (head : Option String) (e : TypeMapEntry) : TypeMapEntry :=
  { e with symbol := e.symbol.relocated head }

/-- A graph with the files of all symbols relative to the root. -/
def Graph.relocated (head : Option String) (g : Graph) : Graph :=
  { g with
    files := g.files.map fun _ => .relocated head
    typeMap := g.typeMap.map fun _ => .relocated head }

theorem Json.relocated_none (file : Json) : file.relocated none = file := by
  cases file <;> rfl

theorem Symbol.relocated_none (s : Symbol) : s.relocated none = s := by
  rw [relocated, Json.relocated_none]

theorem Graph.relocated_none (g : Graph) : g.relocated none = g := by
  have hfiles : g.files.map (fun _ => UnitData.relocated none) = g.files := by
    refine Table.map_eq_self_iff.2 fun unit data _ => ?_
    rw [UnitData.relocated, SymbolTable.mapSymbols_eq_self_iff.2 fun _ s _ => s.relocated_none]
  have htypes : g.typeMap.map (fun _ => TypeMapEntry.relocated none) = g.typeMap :=
    Table.map_eq_self_iff.2 fun name e _ => by
      rw [TypeMapEntry.relocated, Symbol.relocated_none]
  rw [relocated, hfiles, htypes]

/-- Making the file of a symbol relative succeeds if the file is a text, … -/
theorem Symbol.rebase_eq_relocated {head : String} {s : Symbol}
    (h : ∃ path, s.file = .str path) : s.rebase head = .ok (s.relocated (some head)) := by
  obtain ⟨path, hpath⟩ := h
  rw [rebase, relocated, hpath]
  rfl

/-- … and then the file is a text still. -/
theorem Symbol.file_of_rebase {head : String} {s s' : Symbol} (h : s.rebase head = .ok s') :
    ∃ path, s'.file = .str path := by
  obtain ⟨file, hfile, h⟩ := bind_eq_ok.1 h
  obtain rfl := Except.ok.inj h
  unfold fileBelowRoot at hfile
  split at hfile
  · exact ⟨_, (Except.ok.inj hfile).symm⟩
  · cases hfile

namespace Graph

variable {g g₀ : Graph}

theorem rebase_eq_relocated {head : Option String}
    (h : head.isSome → ∀ s ∈ g.symbols, ∃ path, s.file = .str path) :
    rebase head g = .ok (g.relocated head) := by
  cases head with
  | none => rw [relocated_none]; rfl
  | some head =>
    have hunits : Table.mapValuesM (UnitData.rebase head) g.files.entries =
        .ok (g.relocated (some head)).files.entries := by
      refine mapValuesM_eq_ok.2 (List.forall₂_map_right_iff.2 (List.forall₂_same.2 fun e he => ?_))
      have hsymbols : e.2.symbols.mapSymbolsM (Symbol.rebase head) =
          .ok (e.2.symbols.mapSymbols (.relocated (some head))) :=
        SymbolTable.ofBucketsM_eq_ok.2 fun k => mapM_eq_ok.2 (List.forall₂_map_right_iff.2
          (List.forall₂_same.2 fun s hs =>
            Symbol.rebase_eq_relocated (h rfl s (mem_symbols_of_unit he hs))))
      rw [UnitData.rebase, hsymbols]
      exact ⟨rfl, rfl⟩
    have htypes : Table.mapValuesM (TypeMapEntry.rebase head) g.typeMap.entries =
        .ok (g.relocated (some head)).typeMap.entries := by
      refine mapValuesM_eq_ok.2 (List.forall₂_map_right_iff.2 (List.forall₂_same.2 fun e he => ?_))
      rw [TypeMapEntry.rebase, Symbol.rebase_eq_relocated (h rfl _ (mem_symbols_of_type he))]
      exact ⟨rfl, rfl⟩
    simp only [rebase, hunits, htypes, ok_bind, Table.ofList_entries]
    rfl

theorem file_of_rebase {head : String} (h : rebase (some head) g₀ = .ok g) :
    ∀ s ∈ g.symbols, ∃ path, s.file = .str path := by
  obtain ⟨units, hunits, h⟩ := bind_eq_ok.1 h
  obtain ⟨types, htypes, h⟩ := bind_eq_ok.1 h
  obtain rfl := Except.ok.inj h
  intro s hs
  rcases exists_of_mem_symbols hs with ⟨unit, data, k, he, hs⟩ | ⟨name, entry, he, rfl⟩
  · obtain ⟨e₀, -, -, hrebase⟩ :=
      exists_left_of_mem (mapValuesM_eq_ok.1 hunits) (Table.mem_of_mem_ofList he)
    obtain ⟨symbols, hsymbols, hrebase⟩ := bind_eq_ok.1 hrebase
    obtain rfl : _ = data := Except.ok.inj hrebase
    obtain ⟨s₀, -, hs₀⟩ := exists_of_mem_mapM (SymbolTable.ofBucketsM_eq_ok.1 hsymbols k) hs
    exact Symbol.file_of_rebase hs₀
  · obtain ⟨e₀, -, -, hrebase⟩ :=
      exists_left_of_mem (mapValuesM_eq_ok.1 htypes) (Table.mem_of_mem_ofList he)
    obtain ⟨s, hsymbol, hrebase⟩ := bind_eq_ok.1 hrebase
    obtain rfl : _ = entry := Except.ok.inj hrebase
    exact Symbol.file_of_rebase hsymbol

/-- The files of a graph that was read are texts, if its root is known. -/
theorem file_of_ofDocument {document : Json} (h : ofDocument document = .ok g)
    (hroot : (rootHead g.repoPath).isSome) : ∀ s ∈ g.symbols, ∃ path, s.file = .str path := by
  obtain ⟨ms, g₀, -, hpath, hrebase⟩ := exists_rebase_of_ofDocument h
  rw [repoPath_rebase hrebase, hpath] at hroot
  obtain ⟨head, hhead⟩ := Option.isSome_iff_exists.1 hroot
  rw [hhead] at hrebase
  exact file_of_rebase hrebase

end Graph

/-! ## Parts of the second document -/

theorem rootHead_ne {repoPath : Json} {head : String} (h : rootHead repoPath = some head) :
    head ≠ "" := by
  obtain ⟨root, -, rfl⟩ := Option.map_eq_some_iff.1 h
  intro hnil
  have hlist := congrArg String.toList hnil
  rw [String.toList_append] at hlist
  exact absurd (List.append_eq_nil_iff.1 hlist).2 (by decide)

/-- A symbol as it is read back, with its file relative to the root. -/
def Symbol.resaved (head : Option String) (s : Symbol) : Symbol := s.retagged.relocated head

/-- A symbol is written the same again if its tag is read back and its file is relative. -/
theorem Symbol.toJson_resaved_iff {head : Option String} {s : Symbol} :
    (s.resaved head).toJson = s.toJson ↔ s.Rereadable ∧ s.file.relocated head = s.file := by
  constructor
  · intro h
    have hmembers : (s.resaved head).toMembers = s.toMembers := Json.obj.inj h
    have hfile := congrArg (Json.memberOrNull "file") hmembers
    have hraw := congrArg (Json.memberOrNull "rawKind") hmembers
    rw [memberOrNull_toMembers _ (by decide), memberOrNull_toMembers _ (by decide)] at hraw
    have htag : (if s.rawKind.truthy then s.rawKind else .null) = s.rawKind := hraw
    exact ⟨retagged_eq_self_iff.1 (by rw [retagged, htag]), hfile⟩
  · rintro ⟨htag, hfile⟩
    rw [resaved, retagged_eq_self_iff.2 htag, relocated, hfile]

/-- Units that are written the same have the same symbols in writing. -/
theorem UnitData.toJson_symbols {u u' : UnitData} (h : u.toJson = u'.toJson) (k : SymbolKind) :
    (u.symbols.bucket k).map Symbol.toJson = (u'.symbols.bucket k).map Symbol.toJson := by
  simp only [toJson, SymbolTable.toJson, SymbolKind.all, List.map_cons, List.map_nil,
    Json.obj.injEq, Json.arr.injEq, List.cons.injEq, Prod.mk.injEq, true_and, and_true] at h
  obtain ⟨-, ⟨hc, hs, hp, he, hx, hf, hv⟩, -⟩ := h
  cases k <;> assumption

namespace Graph

variable {g : Graph}

/-- A graph that was written and read, with its paths relative to the root. -/
def resaved (g : Graph) : Graph := g.retagged.relocated (rootHead g.repoPath)

theorem exists_of_mem_retagged {s : Symbol} (hs : s ∈ g.retagged.symbols) :
    ∃ s₀ ∈ g.symbols, s = s₀.retagged := by
  rcases exists_of_mem_symbols hs with ⟨unit, data, k, he, hs⟩ | ⟨name, entry, he, rfl⟩
  · obtain ⟨e₀, he₀, heq⟩ := List.mem_map.1 (Table.mem_of_mem_ofList he)
    cases heq
    obtain ⟨s₀, hs₀, rfl⟩ := List.mem_map.1 hs
    exact ⟨s₀, mem_symbols_of_unit he₀ hs₀, rfl⟩
  · obtain ⟨e₀, he₀, heq⟩ := List.mem_map.1 he
    cases heq
    exact ⟨e₀.2.symbol, mem_symbols_of_type he₀, rfl⟩

/-- **What is read back from the document of a graph** whose files are texts. -/
theorem ofDocument_toDocument_resaved
    (hfiles : (rootHead g.repoPath).isSome → ∀ s ∈ g.symbols, ∃ path, s.file = .str path) :
    ofDocument g.toDocument = .ok g.resaved := by
  rw [ofDocument_toDocument_eq, rebase_eq_relocated fun hroot s hs => ?_]
  · rfl
  · obtain ⟨s₀, hs₀, rfl⟩ := exists_of_mem_retagged hs
    exact hfiles hroot s₀ hs₀

theorem files_resaved (g : Graph) : g.resaved.files =
    Table.ofList (g.files.entries.map fun e => (belowRoot (rootHead g.repoPath) e.1,
      e.2.retagged.relocated (rootHead g.repoPath))) := by
  rw [resaved, relocated, retagged, Table.map_ofList, List.map_map]
  rfl

theorem entries_typeMap_resaved (g : Graph) : g.resaved.typeMap.entries =
    g.typeMap.entries.map fun e => (e.1, e.2.retagged.relocated (rootHead g.repoPath)) :=
  List.map_map

/-- If the second document is the first one, the units keep their ids, … -/
theorem units_of_toDocument_resaved (h : g.resaved.toDocument = g.toDocument)
    {e : String × UnitData} (he : e ∈ g.files.entries) :
    belowRoot (rootHead g.repoPath) e.1 = e.1 ∧
      (e.2.retagged.relocated (rootHead g.repoPath)).toJson = e.2.toJson := by
  simp only [toDocument, Json.obj.injEq, List.cons.injEq, Prod.mk.injEq, true_and,
    Json.ofTable] at h
  obtain ⟨-, -, hunits, -⟩ := h
  -- no unit is lost, so that no two ids have become one
  have hsize : g.resaved.files.size = g.files.size := by
    have hlength := congrArg List.length hunits
    rwa [List.length_map, List.length_map] at hlength
  rw [files_resaved] at hsize hunits
  rw [Table.entries_ofList_of_nodup (Table.nodup_of_size_ofList
    (hsize.trans (List.length_map _).symm)), List.map_map, List.map_inj_left] at hunits
  exact Prod.mk.inj (hunits e he)

/-- … and all symbols are written the same. -/
theorem symbols_of_toDocument_resaved (h : g.resaved.toDocument = g.toDocument) {s : Symbol}
    (hs : s ∈ g.symbols) : (s.resaved (rootHead g.repoPath)).toJson = s.toJson := by
  rcases exists_of_mem_symbols hs with ⟨unit, data, k, he, hs⟩ | ⟨name, entry, he, rfl⟩
  · have hbucket := UnitData.toJson_symbols (units_of_toDocument_resaved h he).2 k
    change (((data.symbols.bucket k).map Symbol.retagged).map
      (Symbol.relocated (rootHead g.repoPath))).map Symbol.toJson = _ at hbucket
    rw [List.map_map, List.map_map, List.map_inj_left] at hbucket
    exact hbucket s hs
  · simp only [toDocument, Json.obj.injEq, List.cons.injEq, Prod.mk.injEq, true_and, Json.ofTable,
      entries_typeMap_resaved, List.map_map, List.map_inj_left] at h
    obtain ⟨-, -, -, ⟨htypes, -⟩, -⟩ := h
    have hentry := (Prod.mk.inj (htypes (name, entry) he)).2
    simp only [TypeMapEntry.toJson, Json.obj.injEq, List.cons.injEq, Prod.mk.injEq, true_and,
      and_true] at hentry
    exact hentry.2.2

/-- **When the second document is the first one:** if all tags are read back and no path lies
    under the root. -/
theorem toDocument_resaved_iff
    (hfiles : (rootHead g.repoPath).isSome → ∀ s ∈ g.symbols, ∃ path, s.file = .str path) :
    g.resaved.toDocument = g.toDocument ↔ (∀ s ∈ g.symbols, s.Rereadable) ∧ g.Relative := by
  constructor
  · intro h
    have hsymbols (s : Symbol) (hs : s ∈ g.symbols) :=
      Symbol.toJson_resaved_iff.1 (symbols_of_toDocument_resaved h hs)
    refine ⟨fun s hs => (hsymbols s hs).1, fun head hhead => ⟨fun unit hunit => ?_, fun s hs => ?_⟩⟩
    · obtain ⟨e, he, rfl⟩ := List.mem_map.1 hunit
      have hid := (units_of_toDocument_resaved h he).1
      rw [hhead] at hid
      exact (Text.dropPrefix_eq_self_iff (rootHead_ne hhead)).1 hid
    · obtain ⟨path, hpath⟩ := hfiles (by rw [hhead]; rfl) s hs
      have hfile := (hsymbols s hs).2
      rw [hhead, hpath] at hfile
      exact ⟨path, hpath,
        (Text.dropPrefix_eq_self_iff (rootHead_ne hhead)).1 (Json.str.inj hfile)⟩
  · rintro ⟨htags, hroot⟩
    have hsettled := (ofDocument_toDocument_resaved hfiles).symm.trans
      (ofDocument_toDocument htags hroot)
    rw [Except.ok.inj hsettled, toDocument_settled]

end Graph

/-- **The graph of a document can be written and read again.**  Its second document is the first
    one exactly if all tags that are stored count as present, and no unit and no symbol lies
    under the root by its path; else the tags are lost, and the paths are made relative once
    more. -/
theorem resave_ofDocument {document : Json} {g : Graph} (h : Graph.ofDocument document = .ok g) :
    Graph.ofDocument g.toDocument = .ok g.resaved ∧
      (g.resaved.toDocument = g.toDocument ↔ (∀ s ∈ g.symbols, s.Rereadable) ∧ g.Relative) :=
  ⟨Graph.ofDocument_toDocument_resaved (Graph.file_of_ofDocument h),
    Graph.toDocument_resaved_iff (Graph.file_of_ofDocument h)⟩

/-- A document of one class with an empty text in the place of its kind, where earlier releases
    wrote the tag. -/
def emptyKind : Json :=
  .obj [("files", .obj [("A.swift", .obj [("symbols", .obj [("classes",
    .arr [.obj [("name", .str "A"), ("kind", .str "")]])])])]), ("dependencyGraph", .obj []),
    ("indexes", .obj [])]

/-- The empty text is written as the tag of the class, and not the second time. -/
theorem resave_emptyKind : ∃ g, Graph.ofDocument emptyKind = .ok g ∧
    Graph.ofDocument g.toDocument = .ok g.resaved ∧ g.resaved.toDocument ≠ g.toDocument := by
  obtain ⟨g, hg, s, hs, hraw⟩ : ∃ g, Graph.ofDocument emptyKind = .ok g ∧
      ∃ s ∈ g.symbols, s.rawKind = .str "" :=
    ⟨_, rfl, _, List.mem_cons_self, rfl⟩
  obtain ⟨hread, hsame⟩ := resave_ofDocument hg
  refine ⟨g, hg, hread, fun h => ?_⟩
  rcases (hsame.1 h).1 s hs with hnull | htruthy
  · rw [hraw] at hnull
    cases hnull
  · rw [hraw] at htruthy
    cases htruthy

end DeclGraph
