/-
  Searching for parts of names.

  Names and the searched text are put in lower case on their own, and the lower case of a capital
  sigma depends on its place in a word.  So a search for a part of a name may miss the name.

  * `Built.exists_hit_iff`: a symbol is found if its name in lower case holds the text in lower
    case;
  * `search_part_build`: a part of a name finds it, unless a capital sigma is final in one of
    them only.
-/
import DeclGraph.Proofs.Query.Search
import DeclGraph.Proofs.Text.Case

namespace DeclGraph

/-- Whether a hit stands for a symbol of a unit: it has its name, its kind and the unit. -/
def SearchHit.StandsFor (hit : SearchHit) (unit : String) (s : Symbol) : Prop :=
  hit.name = s.name ∧ hit.kind = s.kind ∧ hit.file = unit

/-- **A symbol is found if its name in lower case holds the text in lower case.** -/
theorem Graph.Built.exists_hit_iff {g : Graph} (hg : g.Built) {query : String} {kind : Json}
    {kinds : List SymbolKind} (hkind : searchKinds kind = .ok kinds) {hits : List SearchHit}
    (h : g.search query kind none = .ok hits) {o : Occurrence} (ho : o ∈ occurrences g.files kinds)
    {name : String} (hname : o.symbol.name = .str name) :
    (∃ hit ∈ hits, hit.StandsFor o.unit o.symbol) ↔
      Text.contains (Text.toLower name) (Text.toLower query) = true := by
  rw [hg.search_eq query hkind] at h
  obtain rfl := Except.ok.inj h
  have hholds {s : Symbol} (hs : s.name = .str name) : s.holds (Text.toLower query) =
      Text.contains (Text.toLower name) (Text.toLower query) := by
    rw [Symbol.holds, hs]
  constructor
  · -- the hit may be another symbol, of the same name
    rintro ⟨hit, hhit, hsame, -, -⟩
    obtain ⟨o', ho', rfl⟩ := List.mem_map.1 hhit
    rw [← hholds (hsame.trans hname)]
    exact (List.mem_filter.1 ho').2
  · intro hcontains
    refine ⟨o.hit, List.mem_map_of_mem (List.mem_filter.2 ⟨ho, ?_⟩), rfl, ?_, rfl⟩
    · rw [hholds hname, hcontains]
    · exact (hg.kind_eq_of_mem ho).symm

/-- **A search for a part of a name finds it**, if no capital sigma of the part is final in the
    name or in the part only; so it does if the part holds no capital sigma.  In any case the name
    is found exactly if its lower case holds that of the part. -/
theorem search_part_build (units : List RawUnit) (repoPath generatedAt : Json) :
    let g := (build units repoPath generatedAt).1
    ∀ unit data, (unit, data) ∈ g.files.entries →
      ∀ kind ∈ [SymbolKind.class_, .struct, .protocol, .function, .enum],
      ∀ s ∈ data.symbols.bucket kind, ∀ before part after : String,
        s.name = .str (before ++ part ++ after) →
        ∃ hits, g.search part .null none = .ok hits ∧
          ((∃ hit ∈ hits, hit.StandsFor unit s) ↔
            Text.contains (Text.toLower (before ++ part ++ after)) (Text.toLower part) = true) ∧
          (Text.KeepsSigmas before.toList part.toList after.toList →
            ∃ hit ∈ hits, hit.StandsFor unit s) ∧
          ('Σ' ∉ part.toList → ∃ hit ∈ hits, hit.StandsFor unit s) := by
  intro g unit data hdata kind hkind s hs before part after hname
  have hg : g.Built := built_build
  have hsearched : searchKinds .null = .ok SymbolKind.searched := rfl
  have ho : (⟨unit, kind, s⟩ : Occurrence) ∈ occurrences g.files SymbolKind.searched :=
    mem_occurrences.2 ⟨data, hdata, hkind, hs⟩
  have hsearch := hg.search_eq part hsearched
  have hfound := hg.exists_hit_iff hsearched hsearch ho hname
  refine ⟨_, hsearch, hfound, fun hkeeps => ?_, fun hsigma => ?_⟩
  · exact hfound.2 (Text.contains_toLower hkeeps)
  · exact hfound.2 (Text.contains_toLower (Text.keepsSigmas_of_notMem hsigma _ _))

/-- A unit that declares one class, of which the name ends in a capital sigma. -/
def sigmaClass : RawUnit where
  id := "A.swift"
  dialect := .str "swift"
  dump := .obj [("key.kind", .str "source.lang.swift.decl.class"), ("key.name", .str "ΑΣ")]

/-- The sigma is final in the name and not on its own, so that it does not find the name; the
    letter before it does. -/
theorem search_part_sigmaClass : ∃ s : Symbol, s.name = .str "ΑΣ" ∧
    let g := (build [sigmaClass] .null .null).1
    (∃ hits, g.search "Σ" .null none = .ok hits ∧ ¬ ∃ hit ∈ hits, hit.StandsFor "A.swift" s) ∧
    ∃ hits, g.search "Α" .null none = .ok hits ∧ ∃ hit ∈ hits, hit.StandsFor "A.swift" s := by
  obtain ⟨data, s, hdata, hs, hname⟩ : ∃ data s,
      ("A.swift", data) ∈ (build [sigmaClass] .null .null).1.files.entries ∧
        s ∈ data.symbols.bucket .class_ ∧ s.name = .str "ΑΣ" := by
    have hnames : (build [sigmaClass] .null .null).1.files.entries.flatMap (fun e =>
        (e.2.symbols.bucket .class_).map fun s => (e.1, s.name)) = [("A.swift", .str "ΑΣ")] := by
      decide +kernel
    obtain ⟨⟨unit, data⟩, hdata, hs⟩ := List.mem_flatMap.1 (hnames ▸ List.mem_cons_self)
    obtain ⟨s, hs, heq⟩ := List.mem_map.1 hs
    obtain ⟨rfl, hname⟩ := Prod.mk.inj heq
    exact ⟨data, s, hdata, hs, hname⟩
  have hpart := search_part_build [sigmaClass] .null .null "A.swift" data hdata .class_
    List.mem_cons_self s hs
  refine ⟨s, hname, ?_, ?_⟩
  · obtain ⟨hits, hsearch, hfound, -, -⟩ := hpart "Α" "Σ" "" hname
    exact ⟨hits, hsearch, fun h => absurd (hfound.1 h) (by decide +kernel)⟩
  · obtain ⟨hits, hsearch, -, -, hfound⟩ := hpart "" "Α" "Σ" hname
    exact ⟨hits, hsearch, hfound (by decide)⟩

end DeclGraph
