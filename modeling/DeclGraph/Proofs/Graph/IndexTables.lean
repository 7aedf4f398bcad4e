/-
  The index tables of units as wholes.

  Recording a symbol adds one value to each of the three tables, and recording a unit adds
  its id to the keys of the table by units.

  * `Indexes.keys_byFile`: the table by units has all units as its keys, in their order;
  * `Indexes.entries_byFile`: so each unit is listed once, with the names that it declares;
  * `Indexes.placed_indexes` and `Indexes.kinded_indexes` say what the keys of the other two
    tables are;
  * `Indexes.balanced_indexes`: the three tables hold equally many values.
-/
import DeclGraph.Proofs.Graph.Declarations
import DeclGraph.Query.Overview

namespace DeclGraph

/-! ## Sums -/

theorem total_nil : total [] = 0 := rfl

theorem total_cons (n : Nat) (ns : List Nat) : total (n :: ns) = n + total ns := rfl

theorem total_eq_of_perm {ns ns' : List Nat} (h : ns.Perm ns') : total ns = total ns' := h.sum_nat

theorem length_flatMap_eq_total {α β : Type*} (f : α → List β) (xs : List α) :
    (xs.flatMap f).length = total (xs.map fun x => (f x).length) :=
  List.length_flatMap

namespace Table

variable {α : Type}

/-! ## Keys -/

theorem keys_append (t : Table (List α)) (key : String) (value : α) :
    (t.append key value).keys = if key ∈ t.keys then t.keys else t.keys ++ [key] :=
  keys_insert t key _

theorem keys_ensure (t : Table (List α)) (key : String) :
    (t.ensure key).keys = if key ∈ t.keys then t.keys else t.keys ++ [key] := by
  unfold ensure
  split
  · rename_i h
    rw [if_pos (List.contains_iff_mem.1 h)]
  · exact keys_insert t key []

/-- A table is known by its keys and by the lists that it has for them. -/
theorem entries_eq_map_row (t : Table (List α)) :
    t.entries = t.keys.map fun key => (key, t.row key) := by
  rw [keys, List.map_map]
  refine (DeclGraph.map_eq_self_iff.2 fun e he => ?_).symm
  exact Prod.ext rfl (row_of_mem he)

/-! ## Numbers of values -/

/-- The number of values in the lists of a table. -/
def volume (t : Table (List α)) : Nat := total (t.values.map List.length)

theorem total_length_put (key : String) (values : List α) (es : List (String × List α)) :
    total ((put key values es).map (·.2.length)) + ((es.lookup key).getD []).length =
      total (es.map (·.2.length)) + values.length := by
  induction es with
  | nil => simp [put, total_nil, total_cons]
  | cons e rest ih =>
    obtain ⟨k, row⟩ := e
    by_cases h : k = key
    · simp [put, h, total_cons]
      omega
    · simp only [put, if_neg h, List.lookup_cons, beq_eq_false_iff_ne.2 (Ne.symm h),
        List.map_cons, total_cons]
      omega

theorem volume_insert (t : Table (List α)) (key : String) (values : List α) :
    (t.insert key values).volume + (t.row key).length = t.volume + values.length := by
  have h := total_length_put key values t.entries
  simp only [volume, Table.values, List.map_map]
  exact h

theorem volume_append (t : Table (List α)) (key : String) (value : α) :
    (t.append key value).volume = t.volume + 1 := by
  have h := volume_insert t key (t.row key ++ [value])
  rw [List.length_append, List.length_singleton] at h
  change (t.insert key (t.row key ++ [value])).volume = _
  omega

theorem volume_ensure (t : Table (List α)) (key : String) :
    (t.ensure key).volume = t.volume := by
  have hrow := row_ensure t key key
  unfold ensure at hrow ⊢
  split at hrow
  · rename_i h
    rw [if_pos h]
  · rename_i h
    have hvolume := volume_insert t key []
    rw [← hrow, row, get?_insert, if_pos rfl] at hvolume
    rw [if_neg h]
    exact hvolume

end Table

namespace Indexes

variable {ix : Indexes} {unit : String} {kind : SymbolKind}

/-! ## The table by units -/

theorem keys_byFile_record (h : unit ∈ ix.byFile.keys) (s : Symbol) :
    (record unit kind ix s).byFile.keys = ix.byFile.keys := by
  rw [record, Table.keys_append, if_pos h]

theorem keys_byFile_recordKind (h : unit ∈ ix.byFile.keys) (data : UnitData) :
    (recordKind unit data ix kind).byFile.keys = ix.byFile.keys := by
  rw [recordKind]
  refine List.foldlRecOn (motive := fun ix' : Indexes => ix'.byFile.keys = ix.byFile.keys)
    _ _ rfl fun ix' hix s _ => ?_
  rw [keys_byFile_record (hix ▸ h), hix]

/-- Recording a unit adds its id. -/
theorem keys_byFile_recordUnit (ix : Indexes) (unit : String) (data : UnitData) :
    (ix.recordUnit unit data).byFile.keys =
      if unit ∈ ix.byFile.keys then ix.byFile.keys else ix.byFile.keys ++ [unit] := by
  have hmem : unit ∈ (ix.byFile.ensure unit).keys := by
    rw [Table.keys_ensure]
    split
    · assumption
    · simp
  rw [← Table.keys_ensure, recordUnit]
  refine List.foldlRecOn
    (motive := fun ix' : Indexes => ix'.byFile.keys = (ix.byFile.ensure unit).keys)
    _ _ rfl fun ix' hix kind _ => ?_
  rw [keys_byFile_recordKind (hix ▸ hmem), hix]

/-- Recording units with new ids adds these ids in their order. -/
theorem keys_byFile_foldl (es : List (String × UnitData)) :
    ∀ ix : Indexes, (ix.byFile.keys ++ es.map Prod.fst).Nodup →
      (es.foldl (fun ix (unit, data) => ix.recordUnit unit data) ix).byFile.keys =
        ix.byFile.keys ++ es.map Prod.fst := by
  induction es with
  | nil => exact fun ix _ => (List.append_nil _).symm
  | cons e es ih =>
    obtain ⟨unit, data⟩ := e
    intro ix h
    have hnew : unit ∉ ix.byFile.keys := by
      rw [List.nodup_append] at h
      exact fun hmem => h.2.2 unit hmem unit (by simp) rfl
    have hkeys := keys_byFile_recordUnit ix unit data
    rw [if_neg hnew] at hkeys
    rw [List.foldl_cons, ih _ (by simpa [hkeys] using h), hkeys, List.append_assoc]
    rfl

/-- **The table by units has the units as its keys**, in their order. -/
theorem keys_byFile (units : Table UnitData) : (indexes units).byFile.keys = units.keys :=
  keys_byFile_foldl units.entries {} units.nodup

/-- **Each unit is listed with the names that it declares.** -/
theorem entries_byFile (units : Table UnitData) :
    (indexes units).byFile.entries = units.entries.map fun entry =>
      (entry.1, (entry.2.symbols.inKinds SymbolKind.indexed).map Symbol.name) := by
  rw [Table.entries_eq_map_row, keys_byFile, Table.keys, List.map_map]
  refine List.map_congr_left fun entry hentry => Prod.ext rfl ?_
  change (indexes units).byFile.row entry.1 = _
  have hget : units.get? entry.1 = some entry.2 :=
    (Table.lookup_eq_some_iff_mem units.nodup).2 hentry
  rw [DeclGraph.row_byFile, filter_unit_occurrences, hget, Option.map_some, Option.getD_some,
    SymbolTable.inKinds, List.map_flatMap, List.map_flatMap]
  simp only [List.map_map]
  rfl

/-! ## Keys of the other tables -/

/-- In the index of names no name is bound to an empty list. -/
def Placed (ix : Indexes) : Prop := ∀ name, ix.byName.get? name ≠ some []

theorem Placed.record (h : ix.Placed) (unit : String) (kind : SymbolKind) (s : Symbol) :
    (record unit kind ix s).Placed := by
  intro name
  cases hs : s.name.text? with
  | none => simpa only [Indexes.record, hs] using h name
  | some n =>
    simp only [Indexes.record, hs, Table.append, Table.get?_insert]
    split
    · simp
    · exact h name

theorem placed_indexes (units : Table UnitData) : (indexes units).Placed := by
  have hempty : Placed {} := fun _ => nofun
  refine List.foldlRecOn (motive := Placed) _ _ hempty fun ix hix entry _ => ?_
  refine List.foldlRecOn (motive := Placed) _ _ hix fun ix hix kind _ => ?_
  exact List.foldlRecOn (motive := Placed) _ _ hix fun ix hix s _ => hix.record entry.1 kind s

/-- The keys of the table by kinds are names of indexed kinds. -/
def Kinded (ix : Indexes) : Prop := ∀ key ∈ ix.byKind.keys, ∃ k ∈ SymbolKind.indexed, key = k.name

theorem Kinded.recordKind (h : ix.Kinded) (unit : String) (data : UnitData)
    (hkind : kind ∈ SymbolKind.indexed) : (recordKind unit data ix kind).Kinded := by
  have hadded {keys : List String}
      (hkeys : ∀ key ∈ keys, ∃ k ∈ SymbolKind.indexed, key = k.name) :
      ∀ key ∈ (if kind.name ∈ keys then keys else keys ++ [kind.name]),
        ∃ k ∈ SymbolKind.indexed, key = k.name := by
    intro key hkey
    split at hkey
    · exact hkeys key hkey
    · rcases List.mem_append.1 hkey with hkey | hkey
      · exact hkeys key hkey
      · exact ⟨kind, hkind, List.mem_singleton.1 hkey⟩
  refine List.foldlRecOn (motive := Kinded) _ _ ?_ fun ix hix s _ => ?_
  · rw [Kinded, Table.keys_ensure]
    exact hadded h
  · rw [Kinded, record, Table.keys_append]
    exact hadded hix

theorem kinded_indexes (units : Table UnitData) : (indexes units).Kinded := by
  have hempty : Kinded {} := fun _ => nofun
  refine List.foldlRecOn (motive := Kinded) _ _ hempty fun ix hix entry _ => ?_
  exact List.foldlRecOn (motive := Kinded) _ _ hix fun ix hix kind hkind =>
    hix.recordKind entry.1 entry.2 hkind

/-! ## Numbers of values -/

/-- Whether the three tables of indexes hold equally many values. -/
structure Balanced (ix : Indexes) : Prop where
  byKind : ix.byKind.volume = ix.byFile.volume
  byName : ix.byName.volume = ix.byFile.volume

/-- A symbol that has a text as its name is recorded in all three tables. -/
theorem Balanced.record (h : ix.Balanced) {s : Symbol} (hs : ∃ name, s.name = .str name) :
    (record unit kind ix s).Balanced := by
  obtain ⟨name, hname⟩ := hs
  constructor
  · simp only [Indexes.record, Table.volume_append, h.byKind]
  · simp only [Indexes.record, hname, Json.text?, Table.volume_append, h.byName]

theorem Balanced.recordKind (h : ix.Balanced) {data : UnitData}
    (hs : ∀ s ∈ data.symbols.bucket kind, ∃ name, s.name = .str name) :
    (recordKind unit data ix kind).Balanced := by
  have hensure : Balanced { ix with byKind := ix.byKind.ensure kind.name } :=
    ⟨(Table.volume_ensure _ _).trans h.byKind, h.byName⟩
  exact List.foldlRecOn (motive := Balanced) _ _ hensure fun ix' hix s hmem =>
    hix.record (hs s hmem)

theorem Balanced.recordUnit (h : ix.Balanced) {data : UnitData}
    (hs : ∀ kind ∈ SymbolKind.indexed, ∀ s ∈ data.symbols.bucket kind, ∃ name, s.name = .str name) :
    (ix.recordUnit unit data).Balanced := by
  have hensure : Balanced { ix with byFile := ix.byFile.ensure unit } :=
    ⟨h.byKind.trans (Table.volume_ensure _ _).symm, h.byName.trans (Table.volume_ensure _ _).symm⟩
  exact List.foldlRecOn (motive := Balanced) _ _ hensure fun ix' hix kind hkind =>
    hix.recordKind (hs kind hkind)

/-- **The indexes of units are balanced** if all names are texts. -/
theorem balanced_indexes {units : Table UnitData}
    (h : ∀ o ∈ occurrences units SymbolKind.indexed, ∃ name, o.symbol.name = .str name) :
    (indexes units).Balanced := by
  refine List.foldlRecOn (motive := Balanced) _ _ ⟨rfl, rfl⟩ fun ix hix entry hentry =>
    hix.recordUnit fun kind hkind s hs => ?_
  exact h ⟨entry.1, kind, s⟩ (mem_occurrences.2 ⟨entry.2, hentry, hkind, hs⟩)

end Indexes

end DeclGraph
