/-
  Which units an overview can be for.

  An overview is for the one unit whose id holds a text.  The longer the text, the fewer ids hold
  it, and the id itself is the longest text that a unit can be asked for by.  So a unit that has its
  id within the id of another unit has no overview.

  * `unit?_overview_eq_some`: an overview is for a unit exactly if the text singles it out;
  * `exists_overview_build`: the units that have an overview, and what it shows.
-/
import DeclGraph.Proofs.Graph.Types
import DeclGraph.Proofs.Text.Basic
import DeclGraph.Query.Overview

namespace DeclGraph

/-- Of distinct items one alone passes a test. -/
theorem filter_eq_singleton_iff {α : Type*} {xs : List α} (h : xs.Nodup) {p : α → Bool} {x : α} :
    xs.filter p = [x] ↔ x ∈ xs ∧ p x ∧ ∀ y ∈ xs, p y → y = x := by
  rw [← List.perm_singleton, List.perm_ext_iff_of_nodup (h.filter _) (List.nodup_singleton x)]
  simp only [List.mem_filter, List.mem_singleton]
  constructor
  · intro hmem
    exact ⟨((hmem x).2 rfl).1, ((hmem x).2 rfl).2, fun y hy hp => (hmem y).1 ⟨hy, hp⟩⟩
  · rintro ⟨hx, hp, honly⟩ y
    refine ⟨fun hy => honly y hy.1 hy.2, ?_⟩
    rintro rfl
    exact ⟨hx, hp⟩

namespace UnitOverview

theorem unit?_eq_some {o : UnitOverview} {unit : String} :
    o.unit? = some unit ↔ o.hits = [unit] := by
  rw [unit?]
  constructor
  · intro h
    split at h
    · rename_i u hhits
      rw [hhits, Option.some.inj h]
    · cases h
  · intro h
    rw [h]

end UnitOverview

namespace Graph

/-- A text singles out a unit: in any letter case, no id but that of the unit holds it. -/
structure SinglesOut (g : Graph) (fragment unit : String) : Prop where
  known : unit ∈ g.files.keys
  holds : Text.contains (Text.toLower unit) (Text.toLower fragment)
  only : ∀ other ∈ g.files.keys,
    Text.contains (Text.toLower other) (Text.toLower fragment) → other = unit

variable {g : Graph} {fragment unit : String}

/-- **An overview is for a unit exactly if the text singles it out.** -/
theorem unit?_overview_eq_some :
    (g.overview fragment).unit? = some unit ↔ g.SinglesOut fragment unit := by
  rw [UnitOverview.unit?_eq_some]
  refine (filter_eq_singleton_iff g.files.nodup).trans ⟨?_, ?_⟩
  · rintro ⟨hknown, hholds, honly⟩
    exact ⟨hknown, hholds, honly⟩
  · rintro ⟨hknown, hholds, honly⟩
    exact ⟨hknown, hholds, honly⟩

/-- If any text singles out a unit, its id does. -/
theorem SinglesOut.self (h : g.SinglesOut fragment unit) : g.SinglesOut unit unit where
  known := h.known
  holds := Text.contains_self _
  only other hother hcontains := by
    refine h.only other hother (Text.contains_iff.2 ?_)
    exact (Text.contains_iff.1 h.holds).trans (Text.contains_iff.1 hcontains)

theorem sections_overview (h : (g.overview fragment).unit? = some unit) :
    (g.overview fragment).sections = g.sectionsOf unit := by
  have hhits : g.unitsHolding fragment = [unit] := UnitOverview.unit?_eq_some.1 h
  rw [overview, hhits]

theorem sectionsOf_eq {data : UnitData} (h : (unit, data) ∈ g.files.entries) :
    g.sectionsOf unit = SymbolKind.shown.map fun kind => (kind, data.symbols.bucket kind) := by
  rw [sectionsOf, get?_files h]

end Graph

/-- **A unit has an overview exactly if its id is in no other id**, in any letter case, and then its
    id is a text to ask for it by.  An overview of a unit shows the symbols of six kinds, each kind
    in the order in which the dump declares it. -/
theorem exists_overview_build (units : List RawUnit) (repoPath generatedAt : Json) :
    let g := (build units repoPath generatedAt).1
    (∀ unit, (∃ fragment, (g.overview fragment).unit? = some unit) ↔
      unit ∈ g.files.keys ∧ ∀ other ∈ g.files.keys,
        Text.contains (Text.toLower other) (Text.toLower unit) → other = unit) ∧
    ∀ fragment unit, (g.overview fragment).unit? = some unit →
      (g.overview unit).unit? = some unit ∧
      (∀ other ∈ g.files.keys,
        Text.contains (Text.toLower other) (Text.toLower fragment) ↔ other = unit) ∧
      ∃ raw ∈ units, ∃ data, raw.id = unit ∧ raw.extract = .ok data ∧
        (unit, data) ∈ g.files.entries ∧
        (g.overview fragment).sections =
          [SymbolKind.class_, .struct, .protocol, .enum, .extension, .function].map
            (fun kind => (kind, data.symbols.bucket kind)) ∧
        ∀ kind, data.symbols.bucket kind =
          (Ast.visited data.dialect.vocabulary raw.dump).filterMap
            (Ast.symbolAt? data.dialect.vocabulary unit kind) := by
  intro g
  refine ⟨fun unit => ⟨?_, ?_⟩, fun fragment unit h => ?_⟩
  · rintro ⟨fragment, h⟩
    have hself := (Graph.unit?_overview_eq_some.1 h).self
    exact ⟨hself.known, hself.only⟩
  · rintro ⟨hknown, honly⟩
    exact ⟨unit, Graph.unit?_overview_eq_some.2 ⟨hknown, Text.contains_self _, honly⟩⟩
  have hsingle := Graph.unit?_overview_eq_some.1 h
  refine ⟨Graph.unit?_overview_eq_some.2 hsingle.self, fun other hother => ⟨?_, ?_⟩, ?_⟩
  · exact hsingle.only other hother
  · rintro rfl
    exact hsingle.holds
  · obtain ⟨⟨_, data⟩, hdata, rfl⟩ := List.mem_map.1 hsingle.known
    obtain ⟨raw, hraw, rfl, hextract⟩ := mem_files_build hdata
    obtain ⟨d, -, hdump⟩ := bind_eq_ok.1 hextract
    obtain ⟨_, _, -, -, hdialect⟩ := Ast.exists_of_extract hdump
    obtain rfl : data.dialect = d := congrArg UnitData.dialect hdialect
    refine ⟨raw, hraw, data, rfl, hextract, hdata, ?_, Ast.bucket_extract hdump⟩
    rw [Graph.sections_overview h, Graph.sectionsOf_eq hdata]
    rfl

/-- Two units of one file name, one of them in a directory. -/
def sameFileName : List RawUnit :=
  [{ id := "A.swift", dialect := .str "swift"
     dump := .obj [("key.kind", .str "source.lang.swift.decl.class"), ("key.name", .str "A")] },
   { id := "src/A.swift", dialect := .str "swift"
     dump := .obj [("key.kind", .str "source.lang.swift.decl.struct"), ("key.name", .str "A")] }]

/-- The directory singles out its unit. -/
theorem exists_overview_sameFileName :
    let g := (build sameFileName .null .null).1
    (g.overview "SRC").unit? = some "src/A.swift" ∧
    (g.overview "src/A.swift").unit? = some "src/A.swift" ∧
    ∃ data, ("src/A.swift", data) ∈ g.files.entries ∧ (g.overview "SRC").sections =
      [SymbolKind.class_, .struct, .protocol, .enum, .extension, .function].map
        fun kind => (kind, data.symbols.bucket kind) := by
  intro g
  have h : (g.overview "SRC").unit? = some "src/A.swift" := by decide +kernel
  obtain ⟨hself, -, raw, -, data, -, -, hdata, hsections, -⟩ :=
    (exists_overview_build sameFileName .null .null).2 "SRC" "src/A.swift" h
  exact ⟨h, hself, data, hdata, hsections⟩

/-- The unit outside of the directory has no overview: every text in its id is in both ids. -/
theorem no_overview_sameFileName :
    let g := (build sameFileName .null .null).1
    "A.swift" ∈ g.files.keys ∧ ∀ fragment, (g.overview fragment).unit? ≠ some "A.swift" := by
  intro g
  have hkeys : g.files.keys = ["A.swift", "src/A.swift"] := by decide +kernel
  refine ⟨by rw [hkeys]; exact List.mem_cons_self, fun fragment h => ?_⟩
  have hother : "src/A.swift" ∈ g.files.keys := by
    rw [hkeys]
    exact List.mem_cons_of_mem _ List.mem_cons_self
  have hcontains : Text.contains (Text.toLower "src/A.swift") (Text.toLower "A.swift") := by
    decide +kernel
  have hsame : "src/A.swift" = "A.swift" :=
    (Graph.unit?_overview_eq_some.1 h).self.only _ hother hcontains
  exact absurd hsame (by decide)

end DeclGraph
