/-
  Units that cannot be read leave no trace in a built graph.

  * `rawTable_of_nodup`: raw units of distinct ids are their own table;
  * `extracted_readable`: reading finds the same among the readable units alone;
  * `build_isolates_unreadable`: the graph is that of the readable units, and the counts
    account for the others.
-/
import DeclGraph.Proofs.Graph.Build

namespace DeclGraph

/-- Whether it can be read what a raw unit declares. -/
def RawUnit.isReadable (u : RawUnit) : Bool := u.extract.toOption.isSome

/-- The raw units that can be read, each id once, in their order. -/
def readable (units : List RawUnit) : List RawUnit :=
  (rawTable units).values.filter RawUnit.isReadable

/-- The raw units that cannot be read, each id once, in their order. -/
def unreadable (units : List RawUnit) : List RawUnit :=
  (rawTable units).values.filter fun u => !u.isReadable

/-! ## Tables of raw units -/

theorem rawTable_of_nodup {units : List RawUnit} (h : (units.map RawUnit.id).Nodup) :
    (rawTable units).entries = units.map fun u => (u.id, u) := by
  refine Table.entries_ofList_of_nodup ?_
  rwa [List.map_map]

theorem keys_rawTable (units : List RawUnit) :
    (rawTable units).keys = (units.map RawUnit.id).eraseDups := by
  rw [rawTable, Table.keys_ofList, List.map_map]
  rfl

/-- Of several raw units with one id the last one counts. -/
theorem get?_rawTable (units : List RawUnit) (id : String) :
    (rawTable units).get? id = (units.filter (·.id = id)).getLast? := by
  rw [rawTable, Table.get?_ofList_eq_getLast?, List.filter_map, List.getLast?_map, Option.map_map]
  exact Option.map_id'

/-- Every raw unit stands under its own id. -/
theorem entries_rawTable (units : List RawUnit) :
    (rawTable units).entries = (rawTable units).values.map fun u => (u.id, u) := by
  rw [Table.values, List.map_map]
  symm
  refine map_eq_self_iff.2 ?_
  rintro ⟨id, u⟩ hu
  obtain ⟨-, rfl⟩ := mem_rawTable hu
  rfl

theorem nodup_ids_rawTable (units : List RawUnit) :
    ((rawTable units).values.map RawUnit.id).Nodup := by
  have h := (rawTable units).nodup
  rw [entries_rawTable, List.map_map] at h
  exact h

theorem extracted_of_entries {raw : Table RawUnit} {us : List RawUnit}
    (h : raw.entries = us.map fun u => (u.id, u)) :
    extracted raw = us.filterMap fun u => u.extract.toOption.map (u.id, ·) := by
  rw [extracted, h, List.filterMap_map]
  rfl

theorem failing_of_entries {raw : Table RawUnit} {us : List RawUnit}
    (h : raw.entries = us.map fun u => (u.id, u)) :
    failing raw = (us.filter fun u => !u.isReadable).map RawUnit.id := by
  rw [failing, h, List.filterMap_map]
  clear h
  induction us with
  | nil => rfl
  | cons u us ih =>
    rw [List.filterMap_cons, ih, List.filter_cons, RawUnit.isReadable]
    cases h : u.extract.toOption <;> simp [h]

/-! ## The readable units alone -/

theorem forall₂_extracted (us : List RawUnit) :
    List.Forall₂ (fun u entry => entry.1 = u.id ∧ u.extract = .ok entry.2)
      (us.filter RawUnit.isReadable)
      (us.filterMap fun u => u.extract.toOption.map (u.id, ·)) := by
  induction us with
  | nil => exact .nil
  | cons u us ih =>
    rw [List.filter_cons, List.filterMap_cons, RawUnit.isReadable]
    cases hu : u.extract with
    | error fault => exact ih
    | ok data => exact .cons ⟨rfl, hu⟩ ih

/-- **Reading finds the same** whether the unreadable units are there or not. -/
theorem extracted_readable (units : List RawUnit) :
    extracted (rawTable (readable units)) = extracted (rawTable units) := by
  have hnodup : ((readable units).map RawUnit.id).Nodup :=
    (nodup_ids_rawTable units).sublist (List.filter_sublist.map _)
  rw [extracted_of_entries (rawTable_of_nodup hnodup),
    extracted_of_entries (entries_rawTable units), readable, List.filterMap_filter]
  refine List.filterMap_congr fun u _ => ?_
  rw [RawUnit.isReadable]
  cases u.extract <;> rfl

/-- Every raw unit can be read or not. -/
theorem length_readable_add (units : List RawUnit) :
    (readable units).length + (unreadable units).length = (rawTable units).size := by
  have hsplit := List.length_eq_length_filter_add (l := (rawTable units).values)
    RawUnit.isReadable
  have hsize : (rawTable units).size = (rawTable units).values.length := (List.length_map _).symm
  rw [hsize, hsplit]
  rfl

/-- **Units that cannot be read are isolated.**  Every id stands once for its last unit, at its
    first place.  The graph is that of the readable units alone, which hold what is read off
    their own dumps; the others are reported by their ids, in their order, and no unit is left
    out of the counts. -/
theorem build_isolates_unreadable (units : List RawUnit) (repoPath generatedAt now : Json) :
    let g := (build units repoPath generatedAt).1
    let alone := (build (readable units) repoPath now).1
    let stats := (build units repoPath generatedAt).2
    (rawTable units).keys = (units.map RawUnit.id).eraseDups ∧
      (∀ id, (rawTable units).get? id = (units.filter (·.id = id)).getLast?) ∧
      g = { alone with generatedAt } ∧
      List.Forall₂ (fun u entry => entry.1 = u.id ∧ u.extract = .ok entry.2)
        (readable units) g.files.entries ∧
      stats.failed = (unreadable units).map RawUnit.id ∧
      stats.errors = stats.failed.length ∧
      stats.processed = g.files.size ∧
      stats.total = (rawTable units).size ∧
      stats.total = stats.processed + stats.errors := by
  intro g alone stats
  have hentries := entries_rawTable units
  have hfailed : stats.failed = (unreadable units).map RawUnit.id := by
    dsimp only [stats]
    rw [build_eq]
    exact failing_of_entries hentries
  have hfiles : List.Forall₂ (fun u entry => entry.1 = u.id ∧ u.extract = .ok entry.2)
      (readable units) g.files.entries := by
    dsimp only [g]
    rw [entries_files_build, extracted_of_entries hentries]
    exact forall₂_extracted _
  have herrors : stats.errors = stats.failed.length := by
    dsimp only [stats]
    rw [build_eq]
  refine ⟨keys_rawTable units, get?_rawTable units, ?_, hfiles, hfailed, herrors, rfl, rfl, ?_⟩
  · dsimp only [g, alone]
    rw [build_eq, build_eq, extracted_readable]
    rfl
  · have htotal : stats.total = (rawTable units).size := rfl
    have hprocessed : stats.processed = (readable units).length := hfiles.length_eq.symm
    rw [htotal, hprocessed, herrors, hfailed, List.length_map, length_readable_add]

end DeclGraph
