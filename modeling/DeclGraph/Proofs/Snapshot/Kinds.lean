/-
  The kinds of symbols in documents that are read.

  A document says the kind of a symbol several times: by the bucket that lists it, by the
  symbol itself, and by the entry of the type map.  Reading believes the symbol wherever it
  names a kind, and does not compare.

  * `Graph.KindsAgree`: a symbol has the kind under which it is listed, searched for and
    resolved to;
  * `kinds_of_ofDocument`: what kinds the symbols of a graph have, by its document;
  * `kindsAgree_ofDocument_iff`: the kinds of a graph agree exactly if no symbol in the document
    names another kind than its place.
-/
import DeclGraph.Proofs.Query.Askable
import DeclGraph.Proofs.Query.Search
import DeclGraph.Proofs.Snapshot.Legacy

namespace DeclGraph

/-! ## Stored symbols -/

namespace Json

/-- The kind that a value names. -/
def namedKind? (j : Json) : Option SymbolKind := (j.valueAt "kind").text?.bind SymbolKind.ofName?

/-- Whether a value names another kind than the given one. -/
def NamesOther (j : Json) (kind : SymbolKind) : Prop :=
  ∃ other ≠ kind, j.valueAt "kind" = .str other.name

theorem namedKind?_eq_some {j : Json} {kind : SymbolKind} :
    j.namedKind? = some kind ↔ j.valueAt "kind" = .str kind.name := by
  rw [namedKind?, Option.bind_eq_some_iff]
  constructor
  · rintro ⟨name, hname, hkind⟩
    have hbeq := List.find?_some hkind
    rw [text?_eq_some.1 hname, eq_of_beq hbeq]
  · intro h
    exact ⟨kind.name, text?_eq_some.2 h, SymbolKind.ofName?_name kind⟩

theorem getD_namedKind?_eq_iff {j : Json} {kind : SymbolKind} :
    j.namedKind?.getD kind = kind ↔ ¬ j.NamesOther kind := by
  simp only [NamesOther, ← namedKind?_eq_some]
  cases j.namedKind? with
  | none => simp
  | some other => simp [eq_comm]

/-- The items of a list that may be missing. -/
def items (j : Json) : List Json := j.listedOrNone.toOption.getD []

/-- The members of an object that may be missing. -/
def fields (j : Json) : List (String × Json) := j.membersOrNone.toOption.getD []

/-- The stored symbols in the bucket of a kind of a stored unit. -/
def storedSymbols (unit : Json) (kind : SymbolKind) : List Json :=
  ((unit.valueAt "symbols").valueAt kind.bucket).items

/-- The stored units of a document with their ids. -/
def storedUnits (document : Json) : Table Json :=
  Table.ofList ((document.valueAt "files").fields.map fun m =>
    (belowRoot (rootHead (document.valueAt "repoPath")) m.1, m.2))

/-- The stored entries of the type map of a document. -/
def storedTypes (document : Json) : Table Json :=
  Table.ofList ((document.valueAt "dependencyGraph").valueAt "typeMap").fields

end Json

/-! ## Reading kinds -/

/-- A symbol that is read has the kind that it names, else the one that its place implies. -/
theorem Symbol.kind_of_ofJson {kind : SymbolKind} {j : Json} {s : Symbol}
    (h : ofJson (some kind) j = .ok s) : s.kind = j.namedKind?.getD kind := by
  obtain ⟨ms, hms, hread⟩ := bind_eq_ok.1 h
  obtain rfl := Json.members_eq_ok.1 hms
  obtain ⟨known, hknown, h⟩ := bind_eq_ok.1 hread
  have hnamed : known = (Json.obj ms).namedKind? := by
    unfold storedKind? at hknown
    split at hknown
    · cases hknown
    · exact (Except.ok.inj hknown).symm
  have hkind : (known <|> some kind) = some (known.getD kind) := by cases known <;> rfl
  rw [hkind] at h
  obtain ⟨_, -, h⟩ := bind_eq_ok.1 h
  obtain ⟨_, -, h⟩ := bind_eq_ok.1 h
  obtain ⟨_, -, h⟩ := bind_eq_ok.1 h
  rw [← Except.ok.inj h, hnamed]

/-- The kinds of the symbols in each bucket of a unit. -/
def UnitData.kinds (u : UnitData) (kind : SymbolKind) : List SymbolKind :=
  (u.symbols.bucket kind).map Symbol.kind

/-- The kinds that the symbols in each bucket of a stored unit get. -/
def Json.kindsOfUnit (unit : Json) (kind : SymbolKind) : List SymbolKind :=
  (unit.storedSymbols kind).map fun item => item.namedKind?.getD kind

theorem UnitData.kinds_of_ofJson {j : Json} {u : UnitData} (h : ofJson j = .ok u) :
    u.kinds = j.kindsOfUnit := by
  obtain ⟨ms, hms, hread⟩ := bind_eq_ok.1 h
  obtain rfl := Json.members_eq_ok.1 hms
  obtain ⟨_, -, h⟩ := bind_eq_ok.1 hread
  obtain ⟨buckets, hbuckets, h⟩ := bind_eq_ok.1 h
  obtain ⟨symbols, hsymbols, h⟩ := bind_eq_ok.1 h
  obtain ⟨_, -, h⟩ := bind_eq_ok.1 h
  obtain ⟨_, -, h⟩ := bind_eq_ok.1 h
  obtain rfl := Except.ok.inj h
  funext kind
  obtain ⟨items, hitems, hbucket⟩ := bind_eq_ok.1 (SymbolTable.ofBucketsM_eq_ok.1 hsymbols kind)
  have hstored : (Json.obj ms).storedSymbols kind = items := by
    rw [Json.storedSymbols, Json.valueAt_obj, Json.valueAt_of_membersOrNone hbuckets, Json.items,
      hitems]
    rfl
  rw [kinds, Json.kindsOfUnit, hstored]
  refine (map_eq_map_of_forall₂ ?_).symm
  exact (mapM_eq_ok.1 hbucket).imp fun item s hs => (Symbol.kind_of_ofJson hs).symm

/-- The kinds of an entry of the type map: its own and that of its symbol. -/
def TypeMapEntry.kinds (e : TypeMapEntry) : Option SymbolKind × Option SymbolKind :=
  (some e.kind, some e.symbol.kind)

/-- The kinds that a stored entry of the type map gets. -/
def Json.kindsOfEntry (entry : Json) : Option SymbolKind × Option SymbolKind :=
  (entry.namedKind?, (entry.valueAt "symbol").namedKind?.or entry.namedKind?)

theorem TypeMapEntry.kinds_of_ofJson {j : Json} {e : TypeMapEntry} (h : ofJson j = .ok e) :
    e.kinds = j.kindsOfEntry := by
  obtain ⟨ms, hms, hread⟩ := bind_eq_ok.1 h
  obtain rfl := Json.members_eq_ok.1 hms
  obtain ⟨stored, hstored, h⟩ := bind_eq_ok.1 hread
  obtain ⟨kind, hkind, h⟩ := bind_eq_ok.1 h
  obtain ⟨_, -, h⟩ := bind_eq_ok.1 h
  obtain ⟨symbol, hsymbol, h⟩ := bind_eq_ok.1 h
  obtain ⟨s, hs, h⟩ := bind_eq_ok.1 h
  obtain rfl := Except.ok.inj h
  have hnamed : (Json.obj ms).namedKind? = some kind := by
    unfold SymbolKind.ofJson at hkind
    split at hkind
    · rename_i k hk
      rw [Json.namedKind?, Json.valueAt_of_required hstored, hk, Except.ok.inj hkind]
    · cases hkind
  rw [kinds, Json.kindsOfEntry, Json.valueAt_of_required hsymbol, hnamed,
    Symbol.kind_of_ofJson hs]
  cases symbol.namedKind? <;> rfl

/-! ## Reading the document -/

/-- Tables of pairs that are in step are in step, if their values are taken in a common form. -/
theorem Table.map_ofList_eq_of_forall₂ {α β γ : Type} {f : α → γ} {g : β → γ}
    {ps : List (String × α)} {qs : List (String × β)}
    (h : List.Forall₂ (fun p q => q.1 = p.1 ∧ g q.2 = f p.2) ps qs) :
    (ofList qs).map (fun _ => g) = (ofList ps).map (fun _ => f) := by
  rw [map_ofList, map_ofList]
  refine congrArg ofList (map_eq_map_of_forall₂ ?_).symm
  exact h.imp fun p q ⟨hkey, hvalue⟩ => Prod.ext hkey.symm hvalue.symm

namespace Graph

variable {g g₀ : Graph}

/-- The kinds of the symbols of a graph, by unit and bucket. -/
def bucketKinds (g : Graph) : Table (SymbolKind → List SymbolKind) :=
  g.files.map fun _ => UnitData.kinds

/-- The kinds in the type map of a graph. -/
def typeKinds (g : Graph) : Table (Option SymbolKind × Option SymbolKind) :=
  g.typeMap.map fun _ => TypeMapEntry.kinds

/-- Making paths relative changes no kind. -/
theorem kinds_rebase {head : Option String} (h : rebase head g₀ = .ok g) :
    g.bucketKinds = g₀.bucketKinds ∧ g.typeKinds = g₀.typeKinds := by
  cases head with
  | none =>
    obtain rfl := Except.ok.inj h
    exact ⟨rfl, rfl⟩
  | some head =>
    obtain ⟨units, hunits, h⟩ := bind_eq_ok.1 h
    obtain ⟨types, htypes, h⟩ := bind_eq_ok.1 h
    obtain rfl := Except.ok.inj h
    have hsymbol {s s' : Symbol} (h : s.rebase head = .ok s') : s'.kind = s.kind := by
      obtain ⟨file, -, h⟩ := bind_eq_ok.1 h
      rw [← Except.ok.inj h]
    constructor
    · rw [bucketKinds, bucketKinds, ← Table.ofList_entries g₀.files]
      refine Table.map_ofList_eq_of_forall₂ ((mapValuesM_eq_ok.1 hunits).imp ?_)
      rintro p q ⟨hkey, hunit⟩
      refine ⟨hkey, funext fun kind => ?_⟩
      obtain ⟨symbols, hsymbols, hunit⟩ := bind_eq_ok.1 hunit
      rw [← Except.ok.inj hunit]
      refine (map_eq_map_of_forall₂ ?_).symm
      exact (mapM_eq_ok.1 (SymbolTable.ofBucketsM_eq_ok.1 hsymbols kind)).imp fun s s' hs =>
        (hsymbol hs).symm
    · rw [typeKinds, typeKinds, ← Table.ofList_entries g₀.typeMap]
      refine Table.map_ofList_eq_of_forall₂ ((mapValuesM_eq_ok.1 htypes).imp ?_)
      rintro p q ⟨hkey, hentry⟩
      refine ⟨hkey, ?_⟩
      obtain ⟨s, hs, hentry⟩ := bind_eq_ok.1 hentry
      rw [← Except.ok.inj hentry, TypeMapEntry.kinds, TypeMapEntry.kinds, hsymbol hs]

/-- **The kinds in a graph that was read**, by its document. -/
theorem kinds_of_ofDocument {document : Json} (h : ofDocument document = .ok g) :
    g.bucketKinds = document.storedUnits.map (fun _ => Json.kindsOfUnit) ∧
      g.typeKinds = document.storedTypes.map fun _ => Json.kindsOfEntry := by
  obtain ⟨ms, rfl, hread⟩ := exists_ofEntries_of_ofDocument h
  obtain ⟨files, hfiles, h⟩ := bind_eq_ok.1 hread
  obtain ⟨units, hunits, h⟩ := bind_eq_ok.1 h
  obtain ⟨dependencies, hdependencies, h⟩ := bind_eq_ok.1 h
  obtain ⟨entries, hentries, h⟩ := bind_eq_ok.1 h
  obtain ⟨types, htypes, h⟩ := bind_eq_ok.1 h
  obtain ⟨_, -, h⟩ := bind_eq_ok.1 h
  obtain ⟨_, -, h⟩ := bind_eq_ok.1 h
  obtain ⟨_, -, h⟩ := bind_eq_ok.1 h
  obtain ⟨_, -, h⟩ := bind_eq_ok.1 h
  obtain ⟨hbuckets, htypeMap⟩ := kinds_rebase h
  rw [hbuckets, htypeMap]
  constructor
  · have hfields : (Json.memberOrNull "files" ms).fields = files := by
      rw [Json.fields, hfiles]
      rfl
    simp only [Json.storedUnits, Json.valueAt_obj, hfields]
    refine Table.map_ofList_eq_of_forall₂ ?_
    rw [List.forall₂_map_left_iff, List.forall₂_map_right_iff]
    refine (mapValuesM_eq_ok.1 hunits).imp ?_
    rintro p q ⟨hkey, hunit⟩
    exact ⟨congrArg (belowRoot (rootHead (Json.memberOrNull "repoPath" ms))) hkey,
      UnitData.kinds_of_ofJson hunit⟩
  · have hfields : (Json.memberOrNull "typeMap" dependencies).fields = entries := by
      rw [Json.fields, hentries]
      rfl
    rw [Json.storedTypes, Json.valueAt_obj, Json.valueAt_of_membersOrNone hdependencies, hfields]
    refine Table.map_ofList_eq_of_forall₂ ((mapValuesM_eq_ok.1 htypes).imp ?_)
    rintro p q ⟨hkey, hentry⟩
    exact ⟨hkey, TypeMapEntry.kinds_of_ofJson hentry⟩

/-! ## Agreement -/

/-- Whether a symbol has one kind wherever it is met. -/
structure KindsAgree (g : Graph) : Prop where
  buckets : ∀ unit data, (unit, data) ∈ g.files.entries → ∀ kind,
    ∀ s ∈ data.symbols.bucket kind, s.kind = kind
  hits : ∀ (text : String) (kind : SymbolKind) limit hits,
    g.search text (.str kind.name) limit = .ok hits → ∀ hit ∈ hits, hit.kind = kind
  resolved : ∀ name found, g.resolve name = .ok (some found) → found.symbol.kind = found.kind

/-- What the index finds stands in a bucket of its kind. -/
theorem mem_bucket_of_resolveIndexed {name : String} {found : Resolved}
    (h : g.resolveIndexed name = .ok (some found)) : ∃ unit data, (unit, data) ∈ g.files.entries ∧
      found.symbol ∈ data.symbols.bucket found.kind := by
  unfold resolveIndexed at h
  split at h
  · cases h
  · obtain ⟨unit?, hunit, h⟩ := bind_eq_ok.1 h
    obtain ⟨symbol, hsymbol, rfl⟩ := Option.map_eq_some_iff.1 (Except.ok.inj h)
    obtain ⟨data, rfl, hfind⟩ := Option.bind_eq_some_iff.1 hsymbol
    unfold Table.at? at hunit
    split at hunit
    · cases hunit
    · obtain ⟨unit, -, hdata⟩ := Option.bind_eq_some_iff.1 (Except.ok.inj hunit)
      exact ⟨unit, data, (Table.lookup_eq_some_iff_mem g.files.nodup).1 hdata,
        List.mem_of_find?_eq_some hfind⟩

/-- **The kinds of a graph agree** if its buckets hold their kinds, and those entries of the
    type map do which the index does not hide. -/
theorem kindsAgree_iff : g.KindsAgree ↔
    (∀ unit data, (unit, data) ∈ g.files.entries → ∀ kind, ∀ s ∈ data.symbols.bucket kind,
      s.kind = kind) ∧
    ∀ name e, g.typeMap.get? name = some e → g.resolveIndexed name = .ok none →
      e.symbol.kind = e.kind := by
  constructor
  · refine fun h => ⟨h.buckets, fun name e he hindex => h.resolved name ⟨e.symbol, e.file, e.kind⟩ ?_⟩
    rw [resolve, hindex, ok_bind]
    simp only [resolveType, he]
    rfl
  · rintro ⟨hbuckets, htypes⟩
    refine ⟨hbuckets, fun text kind limit hits h hit hhit => ?_, fun name found h => ?_⟩
    · obtain ⟨kinds, hkinds, h⟩ := bind_eq_ok.1 h
      obtain rfl := eq_of_searchKinds_name hkinds
      obtain ⟨p, hp, rfl⟩ := mem_of_collect h hhit
      obtain ⟨data, hdata, kind', hkind', hs⟩ := mem_searchSpace.1 hp
      obtain rfl := List.mem_singleton.1 hkind'
      exact hbuckets p.1 data hdata kind' p.2 hs
    · obtain ⟨indexed, hindex, h⟩ := bind_eq_ok.1 h
      cases indexed with
      | some found' =>
        obtain rfl := Option.some.inj (Except.ok.inj h)
        obtain ⟨unit, data, hdata, hs⟩ := mem_bucket_of_resolveIndexed hindex
        exact hbuckets unit data hdata found'.kind found'.symbol hs
      | none =>
        obtain ⟨e, he, rfl⟩ := Option.map_eq_some_iff.1 (Except.ok.inj h)
        exact htypes name e he hindex

theorem eq_of_kinds_eq {e : TypeMapEntry} {stored : Json} (h : e.kinds = stored.kindsOfEntry) :
    stored.namedKind? = some e.kind ∧
      e.symbol.kind = (stored.valueAt "symbol").namedKind?.getD e.kind := by
  obtain ⟨hkind, hsymbol⟩ := Prod.mk.inj h
  rw [← hkind] at hsymbol
  refine ⟨hkind.symm, ?_⟩
  cases hnamed : (stored.valueAt "symbol").namedKind? with
  | none => rw [hnamed] at hsymbol; exact Option.some.inj hsymbol
  | some kind => rw [hnamed] at hsymbol; exact Option.some.inj hsymbol

/-- The buckets of a graph that was read hold their kinds if no stored symbol names another
    one, … -/
theorem buckets_agree_iff {document : Json} (h : ofDocument document = .ok g) :
    (∀ unit data, (unit, data) ∈ g.files.entries → ∀ kind, ∀ s ∈ data.symbols.bucket kind,
      s.kind = kind) ↔
    ∀ unit stored, (unit, stored) ∈ document.storedUnits.entries → ∀ kind,
      ∀ item ∈ stored.storedSymbols kind, ¬ item.NamesOther kind := by
  have hkinds := congrArg Table.entries (kinds_of_ofDocument h).1
  -- both sides say that each list of kinds holds one kind only
  have hgraph : (∀ unit data, (unit, data) ∈ g.files.entries → ∀ kind,
      ∀ s ∈ data.symbols.bucket kind, s.kind = kind) ↔
      ∀ e ∈ g.bucketKinds.entries, ∀ kind, ∀ k ∈ e.2 kind, k = kind := by
    simp only [bucketKinds, Table.map, List.forall_mem_map, UnitData.kinds, Prod.forall]
  have hdocument : (∀ unit stored, (unit, stored) ∈ document.storedUnits.entries → ∀ kind,
      ∀ item ∈ stored.storedSymbols kind, ¬ item.NamesOther kind) ↔
      ∀ e ∈ (document.storedUnits.map fun _ => Json.kindsOfUnit).entries,
        ∀ kind, ∀ k ∈ e.2 kind, k = kind := by
    simp only [Table.map, List.forall_mem_map, Json.kindsOfUnit, Prod.forall,
      Json.getD_namedKind?_eq_iff]
  rw [hgraph, hdocument, hkinds]

/-- … and its type map agrees if no stored entry has a symbol that names another kind than the
    entry. -/
theorem types_agree_iff {document : Json} (h : ofDocument document = .ok g) (p : String → Prop) :
    (∀ name e, g.typeMap.get? name = some e → p name → e.symbol.kind = e.kind) ↔
    ∀ name stored, document.storedTypes.get? name = some stored → p name →
      ∀ kind : SymbolKind, stored.valueAt "kind" = .str kind.name →
        ¬ (stored.valueAt "symbol").NamesOther kind := by
  have hkinds (name : String) : (g.typeMap.get? name).map TypeMapEntry.kinds =
      (document.storedTypes.get? name).map Json.kindsOfEntry := by
    rw [← Table.get?_map (fun _ => TypeMapEntry.kinds), ← Table.get?_map (fun _ => Json.kindsOfEntry)]
    exact congrArg (fun t => Table.get? t name) (kinds_of_ofDocument h).2
  refine forall_congr' fun name => ?_
  specialize hkinds name
  constructor
  · intro hagree stored hstored hp kind hkind
    rw [hstored] at hkinds
    obtain ⟨e, he, heq⟩ := Option.map_eq_some_iff.1 hkinds
    obtain ⟨hnamed, hsymbol⟩ := eq_of_kinds_eq heq
    rw [Json.namedKind?_eq_some.2 hkind] at hnamed
    obtain rfl := Option.some.inj hnamed
    exact Json.getD_namedKind?_eq_iff.1 (hsymbol.symm.trans (hagree e he hp))
  · intro hagree e he hp
    rw [he] at hkinds
    obtain ⟨stored, hstored, heq⟩ := Option.map_eq_some_iff.1 hkinds.symm
    obtain ⟨hnamed, hsymbol⟩ := eq_of_kinds_eq heq.symm
    rw [hsymbol]
    exact Json.getD_namedKind?_eq_iff.2
      (hagree stored hstored hp e.kind (Json.namedKind?_eq_some.1 hnamed))

/-- In a built graph kinds agree. -/
theorem Built.kindsAgree (hg : g.Built) : g.KindsAgree :=
  kindsAgree_iff.2 ⟨fun unit data hdata kind s hs =>
    ((hg.declared unit data hdata).symbols kind s hs).kind_eq, fun _ _ he _ =>
    hg.kind_typeMap ((Table.lookup_eq_some_iff_mem g.typeMap.nodup).1 he)⟩

end Graph

/-- **Kinds agree in built graphs, and in those graphs that are read from documents without a
    symbol in the wrong place:** no stored symbol names another kind than the bucket that lists
    it, and none in the type map names another kind than its entry, unless the index hides the
    entry.  Reading does not check this. -/
theorem kindsAgree_ofDocument_iff (document : Json) :
    (∀ units repoPath generatedAt, (build units repoPath generatedAt).1.KindsAgree) ∧
    ∀ g, Graph.ofDocument document = .ok g → (g.KindsAgree ↔
      (∀ unit stored, (unit, stored) ∈ document.storedUnits.entries → ∀ kind,
        ∀ item ∈ stored.storedSymbols kind, ¬ item.NamesOther kind) ∧
      ∀ name stored, document.storedTypes.get? name = some stored →
        g.resolveIndexed name = .ok none → ∀ kind : SymbolKind,
          stored.valueAt "kind" = .str kind.name →
            ¬ (stored.valueAt "symbol").NamesOther kind) := by
  refine ⟨fun _ _ _ => built_build.kindsAgree, fun g h => ?_⟩
  rw [Graph.kindsAgree_iff, Graph.buckets_agree_iff h,
    Graph.types_agree_iff h fun name => g.resolveIndexed name = .ok none]

/-- A document in which a class names another kind. -/
def misplacedStruct : Json :=
  .obj [("files", .obj [("A.swift", .obj [("symbols", .obj [("classes",
    .arr [.obj [("name", .str "A"), ("kind", .str "struct")]])])])]), ("dependencyGraph", .obj []),
    ("indexes", .obj [])]

/-- The class is read as a struct among the classes, and a search for classes finds it. -/
theorem not_kindsAgree_misplacedStruct : ∃ g, Graph.ofDocument misplacedStruct = .ok g ∧
    ¬ g.KindsAgree ∧ ∃ hits, g.search "A" (.str "class") none = .ok hits ∧
      hits.map SearchHit.kind = [.struct] := by
  obtain ⟨g, hg⟩ : ∃ g, Graph.ofDocument misplacedStruct = .ok g := ⟨_, rfl⟩
  obtain ⟨-, hloaded⟩ := kindsAgree_ofDocument_iff misplacedStruct
  obtain ⟨stored, hstored, hitem⟩ : ∃ stored,
      ("A.swift", stored) ∈ misplacedStruct.storedUnits.entries ∧
        .obj [("name", .str "A"), ("kind", .str "struct")] ∈ stored.storedSymbols .class_ :=
    ⟨_, List.mem_cons_self, List.mem_cons_self⟩
  refine ⟨g, hg, fun h => ?_, ?_⟩
  · obtain ⟨hbuckets, -⟩ := (hloaded g hg).1 h
    exact hbuckets "A.swift" stored hstored .class_ _ hitem ⟨.struct, by decide, rfl⟩
  · obtain rfl := Except.ok.inj hg
    exact ⟨_, rfl, rfl⟩

end DeclGraph
