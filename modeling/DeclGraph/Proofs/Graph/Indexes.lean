/-
  What the indexes of units list.

  Each list of an index is the list of the declarations that have its key, in the
  order of the units, of the indexed kinds, and of the declarations.

  Main results: `row_byName`, `row_byKind` and `row_byFile`.
-/
import DeclGraph.Graph.Indexes
import DeclGraph.Proofs.Table

namespace DeclGraph

/-! ## Tables of lists -/

namespace Table

variable {α : Type}

/-- The list of a key, empty if the key is not bound. -/
def row (t : Table (List α)) (key : String) : List α := (t.get? key).getD []

theorem row_append (t : Table (List α)) (key k : String) (value : α) :
    (t.append key value).row k = t.row k ++ if k = key then [value] else [] := by
  rw [row, append, get?_insert]
  split
  · rename_i h
    rw [h, Option.getD_some, row]
  · rw [List.append_nil, row]

@[simp] theorem row_ensure (t : Table (List α)) (key k : String) :
    (t.ensure key).row k = t.row k := by
  unfold ensure
  split
  · rfl
  · rename_i h
    rw [row, get?_insert]
    split
    · rename_i hk
      have hnone : t.get? key = none := by
        rw [get?, List.lookup_eq_none_iff]
        intro p hp
        rw [bne_iff_ne]
        rintro rfl
        exact h (List.contains_iff_mem.2 (List.mem_map_of_mem hp))
      rw [hk, row, hnone]
      rfl
    · rfl

theorem row_of_mem {t : Table (List α)} {key : String} {values : List α}
    (h : (key, values) ∈ t.entries) : t.row key = values := by
  rw [row, get?, (lookup_eq_some_iff_mem t.nodup).2 h]
  rfl

end Table

/-! ## Indexes -/

namespace Indexes

/-- What the indexed symbols of units contribute to a list, in the order of the
    units, of the kinds and of the buckets. -/
def rows {β : Type} (units : Table UnitData) (new : String → SymbolKind → Symbol → List β) :
    List β :=
  units.entries.flatMap fun entry => SymbolKind.indexed.flatMap fun kind =>
    (entry.2.symbols.bucket kind).flatMap (new entry.1 kind)

theorem mem_rows {β : Type} {units : Table UnitData} {new : String → SymbolKind → Symbol → List β}
    {x : β} : x ∈ rows units new ↔ ∃ unit data, (unit, data) ∈ units.entries ∧
      ∃ kind ∈ SymbolKind.indexed, ∃ s ∈ data.symbols.bucket kind, x ∈ new unit kind s := by
  simp only [rows, List.mem_flatMap, Prod.exists]

/-- What every step adds to a list is added by all steps in a row. -/
theorem foldl_eq_append_flatMap {σ α β : Type*} {rowOf : σ → List β} {step : σ → α → σ}
    {new : α → List β} (h : ∀ s a, rowOf (step s a) = rowOf s ++ new a) (as : List α) (s : σ) :
    rowOf (as.foldl step s) = rowOf s ++ as.flatMap new := by
  induction as generalizing s with
  | nil => rw [List.foldl_nil, List.flatMap_nil, List.append_nil]
  | cons a as ih => rw [List.foldl_cons, ih, h, List.flatMap_cons, List.append_assoc]

/-- What recording one symbol adds to a list determines the list. -/
theorem rowOf_indexes {β : Type} {r : Indexes → List β}
    {new : String → SymbolKind → Symbol → List β}
    (hrecord : ∀ unit kind ix s, r (record unit kind ix s) = r ix ++ new unit kind s)
    (hkind : ∀ ix key, r { ix with byKind := ix.byKind.ensure key } = r ix)
    (hfile : ∀ ix key, r { ix with byFile := ix.byFile.ensure key } = r ix)
    (hempty : r {} = []) (units : Table UnitData) :
    r (indexes units) = rows units new := by
  have hkinds (unit : String) (data : UnitData) (ix : Indexes) (kind : SymbolKind) :
      r (recordKind unit data ix kind) =
        r ix ++ (data.symbols.bucket kind).flatMap (new unit kind) := by
    rw [recordKind, foldl_eq_append_flatMap (hrecord unit kind), hkind]
  have hunits (ix : Indexes) (entry : String × UnitData) :
      r (ix.recordUnit entry.1 entry.2) = r ix ++ SymbolKind.indexed.flatMap fun kind =>
        (entry.2.symbols.bucket kind).flatMap (new entry.1 kind) := by
    rw [recordUnit, foldl_eq_append_flatMap (hkinds entry.1 entry.2), hfile]
  rw [indexes, foldl_eq_append_flatMap hunits, hempty, List.nil_append, rows]

/-- **The declarations of a name.** -/
theorem row_byName (units : Table UnitData) (name : String) :
    (indexes units).byName.row name = rows units fun unit kind s =>
      if s.name = .str name then [⟨.str unit, kind⟩] else [] := by
  refine rowOf_indexes (r := fun ix => ix.byName.row name) (fun unit kind ix s => ?_)
    (fun _ _ => rfl) (fun _ _ => rfl) rfl units
  cases hs : s.name with
  | str n => simp only [record, hs, Json.text?, Table.row_append, Json.str.injEq, eq_comm]
  | _ => simp [record, hs, Json.text?]

/-- **The names of the declarations of a kind.** -/
theorem row_byKind (units : Table UnitData) (key : String) :
    (indexes units).byKind.row key = rows units fun _ kind s =>
      if key = kind.name then [s.name] else [] :=
  rowOf_indexes (r := fun ix => ix.byKind.row key)
    (fun _ _ _ _ => Table.row_append _ _ _ _) (fun _ _ => Table.row_ensure _ _ _)
    (fun _ _ => rfl) rfl units

/-- **The names of the declarations of a unit.** -/
theorem row_byFile (units : Table UnitData) (key : String) :
    (indexes units).byFile.row key = rows units fun unit _ s =>
      if key = unit then [s.name] else [] :=
  rowOf_indexes (r := fun ix => ix.byFile.row key)
    (fun _ _ _ _ => Table.row_append _ _ _ _) (fun _ _ => rfl)
    (fun _ _ => Table.row_ensure _ _ _) rfl units

end Indexes

end DeclGraph
