/-
  Reading back the documents of graphs.

  * `repoPath_of_ofDocument`: reading a document keeps its root as it is;
  * `ofDocument_toDocument_eq`: what is read back from the document of a graph;
  * `ofDocument_toDocument`: it is the graph the document was written from, but for members
    whose type is one of the values that are not written, unless tags that do not count as
    present or absolute paths come in.
-/
import DeclGraph.Proofs.Graph.Codec
import DeclGraph.Proofs.Text.Basic
import DeclGraph.Snapshot.Document

namespace DeclGraph

/-! ## Paths under the root -/

/-- Whether a stored file is a text that does not begin with the root. -/
def Symbol.Outside (head : String) (s : Symbol) : Prop :=
  ∃ path, s.file = .str path ∧ Text.startsWith path head = false

theorem Symbol.rebase_eq_self {head : String} {s : Symbol} (h : s.Outside head) :
    s.rebase head = .ok s := by
  obtain ⟨path, hf, hp⟩ := h
  rw [rebase, hf, fileBelowRoot, Text.dropPrefix_of_not_startsWith hp, ok_bind, ← hf]
  rfl

namespace Graph

/-- The symbols of a graph: those of the units and those of the type map. -/
def symbols (g : Graph) : List Symbol :=
  g.files.values.flatMap (fun u => u.symbols.symbols) ++ g.typeMap.values.map TypeMapEntry.symbol

/-- No unit and no symbol of a graph lies under its root by an absolute path. -/
def Relative (g : Graph) : Prop :=
  ∀ head, rootHead g.repoPath = some head →
    (∀ unit ∈ g.files.keys, Text.startsWith unit head = false) ∧ ∀ s ∈ g.symbols, s.Outside head

/-- A graph in which no member has a type that is not written. -/
def settled (g : Graph) : Graph := { g with files := g.files.map fun _ => .settled }

theorem toDocument_settled (g : Graph) : g.settled.toDocument = g.toDocument := by
  simp only [toDocument, settled, Json.ofTable, Table.map, List.map_map, Function.comp_def,
    UnitData.toJson_settled]

theorem symbols_settled (g : Graph) : g.settled.symbols = g.symbols := by
  simp only [symbols, settled, Table.values, Table.map, List.flatMap_map, List.map_map]
  rfl

theorem mem_symbols_of_unit {g : Graph} {unit : String} {data : UnitData}
    (h : (unit, data) ∈ g.files.entries) {k : SymbolKind} {s : Symbol}
    (hs : s ∈ data.symbols.bucket k) : s ∈ g.symbols := by
  refine List.mem_append_left _ (List.mem_flatMap.2 ⟨data, List.mem_map_of_mem h, ?_⟩)
  exact List.mem_flatMap.2 ⟨k, SymbolKind.mem_all k, hs⟩

theorem mem_symbols_of_type {g : Graph} {name : String} {e : TypeMapEntry}
    (h : (name, e) ∈ g.typeMap.entries) : e.symbol ∈ g.symbols :=
  List.mem_append_right _ (List.mem_map_of_mem (List.mem_map_of_mem h))

/-- A symbol of a graph stands in a bucket of a unit or in the type map. -/
theorem exists_of_mem_symbols {g : Graph} {s : Symbol} (h : s ∈ g.symbols) :
    (∃ unit data k, (unit, data) ∈ g.files.entries ∧ s ∈ data.symbols.bucket k) ∨
      ∃ name e, (name, e) ∈ g.typeMap.entries ∧ e.symbol = s := by
  rcases List.mem_append.1 h with h | h
  · obtain ⟨data, hdata, h⟩ := List.mem_flatMap.1 h
    obtain ⟨⟨unit, data⟩, hentry, rfl⟩ := List.mem_map.1 hdata
    obtain ⟨k, -, h⟩ := List.mem_flatMap.1 h
    exact Or.inl ⟨unit, data, k, hentry, h⟩
  · obtain ⟨e, he, rfl⟩ := List.mem_map.1 h
    obtain ⟨⟨name, e⟩, hentry, rfl⟩ := List.mem_map.1 he
    exact Or.inr ⟨name, e, hentry, rfl⟩

theorem rebase_eq_self {g : Graph} {head : Option String}
    (h : ∀ p, head = some p → ∀ s ∈ g.symbols, s.Outside p) : rebase head g = .ok g := by
  cases head with
  | none => rfl
  | some p =>
    have hsymbol : ∀ s ∈ g.symbols, s.rebase p = .ok s :=
      fun s hs => Symbol.rebase_eq_self (h p rfl s hs)
    have hunits : Table.mapValuesM (UnitData.rebase p) g.files.entries = .ok g.files.entries := by
      refine mapValuesM_self fun e he => ?_
      have : e.2.symbols.mapSymbolsM (Symbol.rebase p) = .ok e.2.symbols :=
        SymbolTable.ofBucketsM_eq_ok.2 fun k =>
          mapM_ok_self fun s hs => hsymbol s (mem_symbols_of_unit he hs)
      rw [UnitData.rebase, this]
      rfl
    have htypes : Table.mapValuesM (TypeMapEntry.rebase p) g.typeMap.entries =
        .ok g.typeMap.entries := by
      refine mapValuesM_self fun e he => ?_
      rw [TypeMapEntry.rebase, hsymbol e.2.symbol (mem_symbols_of_type he)]
      rfl
    simp only [rebase, hunits, htypes, ok_bind, Table.ofList_entries]
    rfl

theorem ofDocument_obj {ms : List (String × Json)}
    (hk : requiredKeys.filter (fun key => (Json.member? key ms).isNone) = [])
    (hv : isSupported ((Json.member? "formatVersion" ms).getD (.int formatVersion))) :
    ofDocument (.obj ms) = (ofEntries ms).mapError .malformed := by
  simp only [ofDocument, pure_bind, hk, ne_eq, not_true_eq_false, if_false, hv, Bool.not_true,
    Bool.false_eq_true]

/-! ## Documents that are read -/

theorem repoPath_rebase {head : Option String} {g g' : Graph} (h : rebase head g = .ok g') :
    g'.repoPath = g.repoPath := by
  cases head with
  | none => rw [Except.ok.inj h]
  | some head =>
    obtain ⟨units, -, h⟩ := bind_eq_ok.1 h
    obtain ⟨types, -, h⟩ := bind_eq_ok.1 h
    rw [← Except.ok.inj h]

/-- A document that is read is an object with entries that can be read. -/
theorem exists_ofEntries_of_ofDocument {document : Json} {g : Graph}
    (h : ofDocument document = .ok g) : ∃ ms, document = .obj ms ∧ ofEntries ms = .ok g := by
  cases document with
  | obj ms =>
    simp only [ofDocument, pure_bind] at h
    split at h
    · cases h
    · split at h
      · cases h
      · exact ⟨ms, rfl, mapError_eq_ok.1 h⟩
  | _ => cases h

/-- Making paths relative is the last step of reading a document. -/
theorem exists_rebase_of_ofDocument {document : Json} {g : Graph}
    (h : ofDocument document = .ok g) : ∃ ms g₀, document = .obj ms ∧
      g₀.repoPath = Json.memberOrNull "repoPath" ms ∧
      rebase (rootHead (Json.memberOrNull "repoPath" ms)) g₀ = .ok g := by
  obtain ⟨ms, rfl, hentries⟩ := exists_ofEntries_of_ofDocument h
  simp only [ofEntries, bind_eq_ok] at hentries
  obtain ⟨_, -, _, -, _, -, _, -, _, -, _, -, _, -, _, -, _, -, hrebase⟩ := hentries
  exact ⟨ms, _, rfl, rfl, hrebase⟩

/-- **The root in a document is read as it is,** whatever value it is. -/
theorem repoPath_of_ofDocument {document : Json} {g : Graph} (h : ofDocument document = .ok g) :
    ∃ ms, document = .obj ms ∧ g.repoPath = Json.memberOrNull "repoPath" ms := by
  obtain ⟨ms, g₀, hdocument, hroot, hg⟩ := exists_rebase_of_ofDocument h
  exact ⟨ms, hdocument, (repoPath_rebase hg).trans hroot⟩

/-! ## Reading back -/

/-- A graph as it is read back, before the files of its symbols are made relative. -/
def retagged (g : Graph) : Graph :=
  { g with
    files := Table.ofList (g.files.entries.map fun e =>
      (belowRoot (rootHead g.repoPath) e.1, e.2.retagged))
    typeMap := g.typeMap.map fun _ => .retagged }

/-- **The document of a graph is read back**, and paths in it are made relative once more. -/
theorem ofDocument_toDocument_eq (g : Graph) : ofDocument g.toDocument =
    (rebase (rootHead g.repoPath) g.retagged).mapError .malformed := by
  have hunits : Table.mapValuesM UnitData.ofJson (g.files.entries.map fun e => (e.1, e.2.toJson)) =
      .ok (g.files.entries.map fun e => (e.1, e.2.retagged)) :=
    mapValuesM_map_ok fun e _ => e.2.ofJson_toJson
  have htypes : Table.mapValuesM TypeMapEntry.ofJson
      (g.typeMap.entries.map fun e => (e.1, e.2.toJson)) = .ok g.retagged.typeMap.entries :=
    mapValuesM_map_ok fun e _ => e.2.ofJson_toJson
  have hedges : (g.edges.map Edge.toJson).mapM Edge.ofJson = .ok g.edges :=
    mapM_map_self fun e _ => e.ofJson_toJson
  have hindexes := Indexes.ofMembers_toJson (rfl : g.indexes.toJson = _)
  rw [toDocument, ofDocument_obj rfl rfl]
  refine congrArg (Except.mapError SnapshotFlaw.malformed) ?_
  simp only [ofEntries, Json.memberOrNull, Json.member?, List.lookup_cons,
    String.reduceBEq, Option.getD_some, Json.ofTable, Json.membersOrNone_obj,
    Json.listedOrNone_arr, ok_bind, hunits, htypes, hedges, Table.ofList_entries, List.map_map]
  rw [show g.indexes.toJson.membersOrNone = .ok _ from Json.membersOrNone_obj _, ok_bind,
    hindexes, ok_bind]
  rfl

/-- It is read back as it was if its tags are and no path is absolute, but for the types of
    members that are not written. -/
theorem ofDocument_toDocument {g : Graph} (htags : ∀ s ∈ g.symbols, s.Rereadable)
    (hroot : g.Relative) : ofDocument g.toDocument = .ok g.settled := by
  have hunits : (g.files.entries.map fun e => (belowRoot (rootHead g.repoPath) e.1,
      e.2.retagged)) = g.settled.files.entries := by
    refine List.map_congr_left fun e he => Prod.ext ?_ ?_
    · cases hh : rootHead g.repoPath with
      | none => rfl
      | some p =>
        exact Text.dropPrefix_of_not_startsWith ((hroot p hh).1 e.1 (List.mem_map_of_mem he))
    · exact UnitData.retagged_eq_settled fun k s hs => htags s (mem_symbols_of_unit he hs)
  have htypes : g.typeMap.map (fun _ => TypeMapEntry.retagged) = g.typeMap := by
    refine Table.map_eq_self_iff.2 fun name e he => ?_
    rw [TypeMapEntry.retagged, Symbol.retagged_eq_self_iff.2 (htags _ (mem_symbols_of_type he))]
  have hretagged : g.retagged = g.settled := by
    rw [retagged, hunits, htypes, Table.ofList_entries]
    rfl
  have hsettled : rebase (rootHead g.repoPath) g.settled = .ok g.settled := by
    refine rebase_eq_self fun p hp s hs => (hroot p hp).2 s ?_
    rwa [symbols_settled] at hs
  rw [ofDocument_toDocument_eq, hretagged, hsettled]
  rfl

end Graph

end DeclGraph
