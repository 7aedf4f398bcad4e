/-
  Indexes and statistics of built graphs.

  * `Graph.Tallied` says what the indexes of a graph list, what its statistics count, and how
    the two agree;
  * `tallied_build`: so it is in every built graph.
-/
import DeclGraph.Proofs.Graph.IndexTables
import DeclGraph.Proofs.Query.Search
import DeclGraph.Query.Overview

namespace DeclGraph

/-- What the indexes of a graph list, what its statistics count, and how the two agree. -/
structure Graph.Tallied (g : Graph) : Prop where
  /-- Each unit is listed once, in its order, with the names that it declares; … -/
  byFile : g.indexes.byFile.entries = g.files.entries.map fun entry =>
    (entry.1, (entry.2.symbols.inKinds [.class_, .struct, .protocol, .enum, .function]).map
      Symbol.name)
  /-- … a kind with the names of that kind, unit after unit; … -/
  byKind : ∀ kind ∈ [.class_, .struct, .protocol, .enum, .function],
    g.indexes.byKind.row (SymbolKind.name kind) = g.files.entries.flatMap fun entry =>
      (entry.2.symbols.bucket kind).map Symbol.name
  /-- … and a name with the places where it is declared. -/
  byName : ∀ name, g.indexes.byName.row name =
    (g.declarations [.class_, .struct, .protocol, .enum, .function] name).map fun o =>
      ⟨.str o.unit, o.kind⟩
  /-- The three indexes list equally many declarations. -/
  volume_byKind : g.indexes.byKind.volume = g.indexes.byFile.volume
  volume_byName : g.indexes.byName.volume = g.indexes.byFile.volume
  units : (g.stats none).units = g.files.size
  /-- As many symbols are counted as the index lists for their kind, … -/
  count_indexed : ∀ kind ∈ [.class_, .struct, .protocol, .enum, .function],
    (g.stats none).count kind = (g.indexes.byKind.row kind.name).length
  /-- … and all extensions, which no index lists. -/
  count_extension : (g.stats none).count .extension =
    (g.files.entries.flatMap fun entry => entry.2.symbols.bucket .extension).length
  types : (g.stats none).types = (g.stats none).count .class_ + (g.stats none).count .struct +
    (g.stats none).count .protocol + (g.stats none).count .enum
  /-- The units come with the lengths of their lists, … -/
  largest : (g.stats none).largest.Perm (g.indexes.byFile.entries.map fun row =>
    (row.1, row.2.length))
  /-- … the longest ones first, … -/
  descending : (g.stats none).largest.Pairwise fun a b => b.2 ≤ a.2
  /-- … and those of one length in the order of the units. -/
  stable : ∀ size, (g.stats none).largest.filter (·.2 = size) =
    (g.indexes.byFile.entries.map fun row => (row.1, row.2.length)).filter (·.2 = size)
  /-- The lengths and the extensions make up all counts. -/
  sizes : total ((g.stats none).largest.map Prod.snd) + (g.stats none).count .extension =
    total ((g.stats none).counts.map Prod.snd)

/-! ## Units by size -/

theorem bySize_trans (a b c : String × Nat) (hab : decide (b.2 ≤ a.2) = true)
    (hbc : decide (c.2 ≤ b.2) = true) : decide (c.2 ≤ a.2) = true :=
  decide_eq_true (Nat.le_trans (of_decide_eq_true hbc) (of_decide_eq_true hab))

theorem bySize_total (a b : String × Nat) :
    (decide (b.2 ≤ a.2) || decide (a.2 ≤ b.2)) = true := by
  rw [Bool.or_eq_true, decide_eq_true_eq, decide_eq_true_eq]
  exact Nat.le_total b.2 a.2

theorem length_inKinds (data : UnitData) :
    (data.symbols.inKinds SymbolKind.indexed).length = data.indexedCount := by
  rw [SymbolTable.inKinds, length_flatMap_eq_total]
  rfl

namespace Graph

variable (g : Graph)

/-- All units with their sizes, in their order. -/
def unitSizes : List (String × Nat) :=
  g.files.entries.map fun (unit, data) => (unit, data.indexedCount)

theorem unitsBySize_perm : g.unitsBySize.Perm g.unitSizes := List.mergeSort_perm _ _

theorem pairwise_unitsBySize : g.unitsBySize.Pairwise fun a b => b.2 ≤ a.2 :=
  (List.pairwise_mergeSort bySize_trans bySize_total g.unitSizes).imp of_decide_eq_true

/-- **Units of one size keep their order** when units are sorted by size. -/
theorem filter_unitsBySize (size : Nat) :
    g.unitsBySize.filter (·.2 = size) = g.unitSizes.filter (·.2 = size) := by
  have hsize : ∀ a ∈ g.unitSizes.filter (·.2 = size), a.2 = size :=
    fun a ha => of_decide_eq_true (List.mem_filter.1 ha).2
  have hsorted : (g.unitSizes.filter (·.2 = size)).Pairwise
      fun a b => decide (b.2 ≤ a.2) = true :=
    List.pairwise_of_forall_mem_list fun a ha b hb =>
      decide_eq_true (Nat.le_of_eq ((hsize b hb).trans (hsize a ha).symm))
  -- a sorted part of the list is a part of the sorted list, and sorting loses nothing
  have hsub : (g.unitSizes.filter (·.2 = size)).Sublist (g.unitsBySize.filter (·.2 = size)) := by
    have h : (g.unitSizes.filter (·.2 = size)).Sublist g.unitsBySize :=
      List.sublist_mergeSort bySize_trans bySize_total hsorted List.filter_sublist
    simpa only [List.filter_filter, Bool.and_self] using h.filter (·.2 = size)
  exact (hsub.eq_of_length ((g.unitsBySize_perm.filter _).length_eq.symm)).symm

/-! ## Counts -/

theorem countOf_eq (kind : SymbolKind) : g.countOf kind =
    (g.files.entries.flatMap fun entry => entry.2.symbols.bucket kind).length := by
  rw [countOf, length_flatMap_eq_total, Table.values, List.map_map]
  rfl

/-- The sizes of all units and the extensions make up the symbols that are counted. -/
theorem total_unitsBySize : total (g.unitsBySize.map Prod.snd) + g.countOf .extension =
    total (SymbolKind.shown.map g.countOf) := by
  have hsizes : total (g.unitSizes.map Prod.snd) = g.countOf .class_ + g.countOf .struct +
      g.countOf .protocol + g.countOf .enum + g.countOf .function := by
    simp only [unitSizes, countOf, Table.values, List.map_map, Function.comp_def,
      UnitData.indexedCount, SymbolKind.indexed, List.map_cons, List.map_nil, total_cons,
      total_nil]
    induction g.files.entries with
    | nil => rfl
    | cons entry rest ih =>
      simp only [List.map_cons, total_cons, ih]
      omega
  rw [total_eq_of_perm (g.unitsBySize_perm.map Prod.snd), hsizes]
  simp only [SymbolKind.shown, List.map_cons, List.map_nil, total_cons, total_nil]
  omega

theorem count_stats (largest : Option Int) {kind : SymbolKind} (h : kind ∈ SymbolKind.shown) :
    (g.stats largest).count kind = g.countOf kind := by
  cases kind with
  | variable_ => exact absurd h (by decide)
  | _ => rfl

variable {g}

/-- The index lists as many names for a unit as its size says. -/
theorem Built.unitSizes_eq (hg : g.Built) :
    g.unitSizes = g.indexes.byFile.entries.map fun row => (row.1, row.2.length) := by
  rw [hg.indexes_eq, Indexes.entries_byFile, List.map_map]
  refine List.map_congr_left fun entry _ => Prod.ext rfl ?_
  exact ((List.length_map _).trans (length_inKinds entry.2)).symm

theorem Built.row_byKind (hg : g.Built) {kind : SymbolKind} (h : kind ∈ SymbolKind.indexed) :
    g.indexes.byKind.row kind.name = g.files.entries.flatMap fun entry =>
      (entry.2.symbols.bucket kind).map Symbol.name := by
  rw [hg.indexes_eq, row_byKind_name g.files h, map_occurrences]
  simp only [List.flatMap_singleton]

theorem Built.balanced (hg : g.Built) : g.indexes.Balanced := by
  rw [hg.indexes_eq]
  exact Indexes.balanced_indexes fun _ ho => hg.name_of_mem ho

end Graph

/-- **The indexes of a built graph list what its units declare, and its statistics count it.**
    They count by kinds and by units what the indexes list, and the extensions besides. -/
theorem tallied_build (units : List RawUnit) (repoPath generatedAt : Json) :
    (build units repoPath generatedAt).1.Tallied := by
  have hg : (build units repoPath generatedAt).1.Built := built_build
  generalize (build units repoPath generatedAt).1 = g at hg
  exact {
    byFile := by rw [hg.indexes_eq]; exact Indexes.entries_byFile g.files
    byKind := fun kind hkind => hg.row_byKind hkind
    byName := hg.places_eq
    volume_byKind := hg.balanced.byKind
    volume_byName := hg.balanced.byName
    units := rfl
    count_indexed := fun kind hkind => by
      have hsub : SymbolKind.indexed ⊆ SymbolKind.shown := by decide
      rw [g.count_stats none (hsub hkind), g.countOf_eq, hg.row_byKind hkind,
        length_flatMap_eq_total, length_flatMap_eq_total]
      simp only [List.length_map]
    count_extension := g.countOf_eq .extension
    types := by
      simp only [GraphStats.types, SymbolKind.types, List.map_cons, List.map_nil, total_cons,
        total_nil]
      omega
    largest := hg.unitSizes_eq ▸ g.unitsBySize_perm
    descending := g.pairwise_unitsBySize
    stable := fun size => hg.unitSizes_eq ▸ g.filter_unitsBySize size
    sizes := g.total_unitsBySize }

end DeclGraph
