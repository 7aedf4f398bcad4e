/-
  Which units are missing from a built graph.

  * `mem_failed_build_iff`: those of an unknown dialect, and those of which the dump is
    refused;
  * `recorded_iff_not_refused`: what costs a unit, and that nothing is lost from any other.
-/
import DeclGraph.Proofs.Graph.Build
import DeclGraph.Proofs.Ast.Refused

namespace DeclGraph

open Ast

theorem RawUnit.exists_extract_iff {u : RawUnit} : (∃ data, u.extract = .ok data) ↔
    ∃ d, Dialect.ofJson u.dialect = .ok d ∧ ¬ Refused d u.dump := by
  rw [RawUnit.extract, exists_bind_eq_ok]
  exact exists_congr fun d => and_congr_right fun _ => Ast.exists_extract_iff

theorem mem_failing_iff {raw : Table RawUnit} {id : String} :
    id ∈ failing raw ↔ ∃ u, (id, u) ∈ raw.entries ∧ ¬ ∃ data, u.extract = .ok data := by
  have hentry (id' : String) (u : RawUnit) :
      (if u.extract.toOption.isSome then none else some id') = some id ↔
        id' = id ∧ ¬ ∃ data, u.extract = .ok data := by
    cases u.extract with
    | error fault => simp [Except.toOption]
    | ok data => simp [Except.toOption]
  simp only [failing, List.mem_filterMap, Prod.exists, hentry]
  constructor
  · rintro ⟨_, u, hu, rfl, h⟩
    exact ⟨u, hu, h⟩
  · rintro ⟨u, hu, h⟩
    exact ⟨id, u, hu, rfl, h⟩

/-- A unit fails if its dialect is not known or its dump is refused. -/
theorem mem_failed_build_iff {units : List RawUnit} {repoPath generatedAt : Json} {id : String} :
    id ∈ (build units repoPath generatedAt).2.failed ↔ ∃ u, (id, u) ∈ (rawTable units).entries ∧
      ∀ d, Dialect.ofJson u.dialect = .ok d → Refused d u.dump := by
  rw [build_eq]
  refine mem_failing_iff.trans (exists_congr fun u => and_congr_right fun _ => ?_)
  rw [RawUnit.exists_extract_iff]
  simp only [not_exists, not_and, not_not]

/-- **Nodes of a wrong shape are left out one by one, unless the dump is refused.**  A dump is
    read, and every declaration in it recorded, exactly if it is not refused; and the units
    of known dialects that fail are those with refused dumps. -/
theorem recorded_iff_not_refused (d : Dialect) (unit : String) (dump : Json) :
    ((∃ data, extract d unit dump = .ok data ∧ Records d unit dump data) ↔ ¬ Refused d dump) ∧
      ∀ units repoPath generatedAt id, id ∈ (build units repoPath generatedAt).2.failed ↔
        ∃ u, (id, u) ∈ (rawTable units).entries ∧
          ∀ d, Dialect.ofJson u.dialect = .ok d → Refused d u.dump := by
  have hread : (∃ data, extract d unit dump = .ok data) ↔ ¬ Refused d dump := exists_extract_iff
  refine ⟨?_, fun _ _ _ _ => mem_failed_build_iff⟩
  rw [← hread]
  exact exists_congr fun data => and_iff_left_of_imp records_of_extract

/-- A unit that declares a class with a number in the place of its children. -/
def numberedClass : RawUnit where
  id := "A.swift"
  dialect := .str "swift"
  dump := .obj [("key.kind", .str "source.lang.swift.decl.class"), ("key.name", .str "A"),
    ("key.substructure", .int 5)]

/-- The node of the class is well formed but for its children. -/
theorem numberedClass_stands : ∃ node, numberedClass.dump = .obj node ∧
    StandsAt .swift numberedClass.dump [] node ∧
    DeclaresKind Dialect.swift.vocabulary node "A" .class_ :=
  ⟨_, rfl, .root (excluded_eq_false_iff.1 (by decide +kernel)), rfl, by decide, _, rfl, by decide,
    by decide +kernel⟩

theorem refused_numberedClass : Refused .swift numberedClass.dump := by
  obtain ⟨node, hdump, hstands, hd⟩ := numberedClass_stands
  have hd' := hd
  obtain ⟨hname, -, tag, htag, hne, -⟩ := hd'
  refine .members ⟨hstands, ⟨hname, tag, htag, hne⟩, ?_, ?_⟩ ?_
  · exact fun _ _ _ _ => List.not_lt_nil _
  · exact ⟨[], node, .class_, by decide, hstands, hd⟩
  · cases hdump
    exact (by decide : (5 : Int) ≠ 0)

/-- The number costs the class and its unit. -/
theorem not_recorded_numberedClass : (∃ node, StandsAt .swift numberedClass.dump [] node ∧
      DeclaresKind Dialect.swift.vocabulary node "A" .class_) ∧
    (¬ ∃ data, extract .swift "A.swift" numberedClass.dump = .ok data ∧
      Records .swift "A.swift" numberedClass.dump data) ∧
    "A.swift" ∈ (build [numberedClass] .null .null).2.failed := by
  obtain ⟨node, -, hstands, hd⟩ := numberedClass_stands
  obtain ⟨hrecorded, hfailed⟩ := recorded_iff_not_refused .swift "A.swift" numberedClass.dump
  refine ⟨⟨node, hstands, hd⟩, fun h => hrecorded.1 h refused_numberedClass, ?_⟩
  refine (hfailed _ _ _ _).2 ⟨numberedClass, List.mem_cons_self, fun d hdialect => ?_⟩
  obtain rfl : Dialect.swift = d := Except.ok.inj hdialect
  exact refused_numberedClass

end DeclGraph
