/-
  What a run of the parsers leaves.

  * `Outcome.Leaves`: the outcomes that leave a dump;
  * `dumpOf_eq_ok_iff`: these dumps are the ones that are read;
  * `ParseRun.foldlM_record`: a run keeps the dumps and the failures apart, each unit's by its id.
-/
import DeclGraph.Parsing
import DeclGraph.Proofs.Except
import DeclGraph.Proofs.Table

namespace DeclGraph

/-- The parser of a unit ended and wrote a dump that the host reads.  Its status does not matter
    as long as it wrote anything. -/
def Outcome.Leaves (h : Host) (o : Outcome) (dump : Json) : Prop :=
  ∃ status output messages, o = .finished status output messages ∧
    (status = 0 ∨ Text.trim (Utf8.decodeLossy output) ≠ "") ∧
    Json.read h.readDepth (Utf8.decodeLossy output) = .ok dump

theorem dumpOf_eq_ok_iff {h : Host} {c : ParserConfig} {unit : String} {o : Outcome} {dump : Json} :
    dumpOf h c unit o = .ok dump ↔ o.Leaves h dump := by
  cases o with
  | notStarted reason => simp [dumpOf, Outcome.Leaves]
  | hanging => simp [dumpOf, Outcome.Leaves]
  | finished status output messages =>
    have hleaves : (Outcome.finished status output messages).Leaves h dump ↔
        ¬ (status ≠ 0 ∧ Text.trim (Utf8.decodeLossy output) = "") ∧
          Json.read h.readDepth (Utf8.decodeLossy output) = .ok dump := by
      rw [not_and_or, not_not]
      constructor
      · rintro ⟨_, _, _, ⟨⟩, hstatus, hread⟩
        exact ⟨hstatus, hread⟩
      · rintro ⟨hstatus, hread⟩
        exact ⟨_, _, _, rfl, hstatus, hread⟩
    rw [hleaves, dumpOf]
    split
    · rename_i hsilent
      simp [hsilent]
    · rename_i hsilent
      rw [mapError_eq_ok]
      simp only [hsilent, not_false_eq_true, true_and]

/-! ## Units of a run -/

section

variable (h : Host) (c : ParserConfig) (outcome : SourceUnit → Outcome)

/-- The dump of a unit. -/
def SourceUnit.dump? (u : SourceUnit) : Option Json := (dumpOf h c u.id (outcome u)).toOption

/-- The failure of a unit.  A fault is none: it ends the run. -/
def SourceUnit.failure? (u : SourceUnit) : Option Problem :=
  match dumpOf h c u.id (outcome u) with
  | .error (.problem p) => some p
  | _ => none

variable {h c outcome} {u : SourceUnit}

theorem SourceUnit.dump?_eq_some_iff {dump : Json} :
    u.dump? h c outcome = some dump ↔ (outcome u).Leaves h dump := by
  rw [dump?, toOption_eq_some]
  exact dumpOf_eq_ok_iff

theorem SourceUnit.isNone_dump?_iff :
    (u.dump? h c outcome).isNone = true ↔ ∀ dump, ¬ (outcome u).Leaves h dump := by
  rw [Option.isNone_iff_eq_none, Option.eq_none_iff_forall_ne_some]
  exact forall_congr' fun dump => not_congr dump?_eq_some_iff

variable (h c outcome)

/-- **A run binds dumps and failures one after the other,** and a run that ends normally meets
    no fault: a unit without a dump has failed. -/
theorem ParseRun.foldlM_record {units : List SourceUnit} {r run : ParseRun}
    (hrun : units.foldlM (fun r u => r.record u (dumpOf h c u.id (outcome u))) r = .ok run) :
    run = {
      dumps := (units.filterMap fun u =>
        (u.dump? h c outcome).map fun dump => (u.id, u.dialect, dump)).foldl
          (fun t e => t.insert e.1 e.2) r.dumps
      failures := (units.filterMap fun u =>
        (u.failure? h c outcome).map fun p => (u.id, p.message)).foldl
          (fun t e => t.insert e.1 e.2) r.failures } ∧
    ∀ u ∈ units, (u.failure? h c outcome).isSome = (u.dump? h c outcome).isNone := by
  induction units generalizing r with
  | nil => exact ⟨(Except.ok.inj hrun).symm, nofun⟩
  | cons u units ih =>
    rw [List.foldlM_cons] at hrun
    obtain ⟨r', hr', hrun⟩ := bind_eq_ok.1 hrun
    obtain ⟨hrest, hmatch⟩ := ih hrun
    rw [hrest, List.filterMap_cons, List.filterMap_cons, List.forall_mem_cons, SourceUnit.dump?,
      SourceUnit.failure?]
    cases hu : dumpOf h c u.id (outcome u) with
    | ok dump =>
      rw [hu] at hr'
      obtain rfl := Except.ok.inj hr'
      exact ⟨rfl, rfl, hmatch⟩
    | error failure =>
      cases failure with
      | problem p =>
        rw [hu] at hr'
        obtain rfl := Except.ok.inj hr'
        exact ⟨rfl, rfl, hmatch⟩
      | fault f =>
        rw [hu] at hr'
        cases hr'

theorem map_fst_filterMap {α β : Type*} (f : SourceUnit → Option α) (g : SourceUnit → α → β)
    (units : List SourceUnit) :
    (units.filterMap fun u => (f u).map fun a => (u.id, g u a)).map Prod.fst =
      (units.filter fun u => (f u).isSome).map SourceUnit.id := by
  induction units with
  | nil => rfl
  | cons u units ih =>
    rw [List.filterMap_cons, List.filter_cons]
    cases f u with
    | none => exact ih
    | some a => exact congrArg (List.cons u.id) ih

variable {h c outcome} {units : List SourceUnit}

/-- **Units with distinct ids all leave their own dumps or failures,** in their order. -/
theorem parseAll_eq_ok {installed : String → Bool} {run : ParseRun}
    (hnodup : (units.map SourceUnit.id).Nodup)
    (hparse : parseAll h c installed outcome units = .ok run) :
    run.dumps.entries =
      (units.filterMap fun u => (u.dump? h c outcome).map fun dump => (u.id, u.dialect, dump)) ∧
    run.failures.keys =
      (units.filter fun u => (u.dump? h c outcome).isNone).map SourceUnit.id := by
  unfold parseAll at hparse
  split at hparse
  · cases hparse
  · obtain ⟨rfl, hmatch⟩ := ParseRun.foldlM_record h c outcome hparse
    constructor
    · refine Table.entries_ofList_of_nodup ?_
      rw [map_fst_filterMap _ fun u dump => (u.dialect, dump)]
      exact hnodup.sublist (List.filter_sublist.map _)
    · have hkeys := map_fst_filterMap (SourceUnit.failure? h c outcome) (fun _ p => p.message) units
      have hentries := Table.entries_ofList_of_nodup
        (hkeys ▸ hnodup.sublist (List.filter_sublist.map _))
      rw [List.filter_congr hmatch] at hkeys
      exact (congrArg (List.map Prod.fst) hentries).trans hkeys

end

end DeclGraph
