/-
  Types that are not written change no answer.

  Only questions for members look at the types of members, and an answer leaves
  out the same types as a document.

  Main result: `toJson_answer_settled`.
-/
import DeclGraph.Proofs.Snapshot.Document
import DeclGraph.Query.Basic

namespace DeclGraph

@[simp] theorem Table.at?_map {α β : Type} (f : α → β) (t : Table α) (key : Json) :
    (t.map fun _ => f).at? key = (t.at? key).map (Option.map f) := by
  unfold Table.at?
  split
  · rfl
  · cases key.text? with
    | none => rfl
    | some k => exact congrArg Except.ok (Table.get?_map _ t k)

namespace Graph

variable (g : Graph)

/-! ## Answers without members -/

theorem files_settled : g.settled.files = g.files.map fun _ => .settled := rfl

theorem resolve_settled (name : String) : g.settled.resolve name = g.resolve name := by
  have hindexed : g.settled.resolveIndexed name = g.resolveIndexed name := by
    unfold resolveIndexed
    rw [files_settled]
    dsimp only [settled]
    split
    · rfl
    · rename_i location _ _
      rw [Table.at?_map]
      cases g.files.at? location.file with
      | error f => rfl
      | ok unit => cases unit <;> rfl
  rw [resolve, hindexed]
  rfl

theorem entries_settled :
    g.settled.files.entries = g.files.entries.map fun e => (e.1, e.2.settled) :=
  rfl

theorem search_settled (query : String) (kind : Json) (limit : Option Int) :
    g.settled.search query kind limit = g.search query kind limit := by
  have hspace (kinds : List SymbolKind) : g.settled.searchSpace kinds = g.searchSpace kinds := by
    rw [searchSpace, entries_settled, List.flatMap_map]
    rfl
  unfold search
  simp only [hspace]

theorem otherUnits_settled (home : Json) :
    g.settled.otherUnits home = (g.otherUnits home).map fun e => (e.1, e.2.settled) := by
  rw [otherUnits, entries_settled, List.filter_map]
  rfl

theorem usagesOutside_settled (name : String) (home : Json) :
    g.settled.usagesOutside name home = g.usagesOutside name home := by
  have hsites : g.settled.extensionSites name home = g.extensionSites name home := by
    rw [extensionSites, otherUnits_settled, List.flatMap_map]
    rfl
  have hunits : g.settled.referencingUnits name home = g.referencingUnits name home := by
    unfold referencingUnits
    rw [otherUnits_settled, show g.settled.otherPlaces name home = g.otherPlaces name home from rfl]
    refine congrArg _ (funext fun others => ?_)
    rw [List.filter_map, List.map_map]
    rfl
  rw [usagesOutside, hsites, hunits]
  rfl

theorem usages_settled (name : String) : g.settled.usages name = g.usages name := by
  unfold usages
  simp only [resolve_settled, usagesOutside_settled]

theorem stats_settled (largest : Option Int) : g.settled.stats largest = g.stats largest := by
  have hcount (kind : SymbolKind) : g.settled.countOf kind = g.countOf kind := by
    rw [countOf, Table.values, entries_settled, List.map_map, List.map_map, countOf, Table.values,
      List.map_map]
    rfl
  have hsizes : g.settled.unitsBySize = g.unitsBySize := by
    rw [unitsBySize, entries_settled, List.map_map]
    rfl
  have hunits : g.settled.unitCount = g.unitCount := by
    rw [unitCount, Table.size, entries_settled, List.length_map]
    rfl
  simp only [stats, hcount, hsizes, hunits]

theorem overview_settled (fragment : String) :
    g.settled.overview fragment = g.overview fragment := by
  have hunits : g.settled.unitsHolding fragment = g.unitsHolding fragment := by
    rw [unitsHolding, Table.keys, entries_settled, List.map_map]
    rfl
  have hsections (unit : String) : g.settled.sectionsOf unit = g.sectionsOf unit := by
    rw [sectionsOf, files_settled, Table.get?_map, sectionsOf]
    cases g.files.get? unit <;> rfl
  simp only [overview, hunits, hsections]

/-! ## Answers with members -/

theorem members_settled (name : String) :
    g.settled.members name = (g.members name).map MemberSet.settled := by
  rw [members, resolve_settled, members]
  cases g.resolve name with
  | error f => rfl
  | ok found =>
    cases found with
    | none => rfl
    | some found =>
      rw [ok_bind, ok_bind]
      dsimp only
      rw [files_settled, Table.at?_map]
      cases g.files.at? found.file with
      | error f => rfl
      | ok unit =>
        cases unit with
        | none => rfl
        | some u =>
          have hmembers : u.settled.members.get? name =
              (u.members.get? name).map MemberSet.settled :=
            Table.get?_map _ u.members name
          rw [map_ok, ok_bind, ok_bind, Option.map_some, Option.bind_some, Option.bind_some,
            hmembers]
          cases u.members.get? name <;> rfl

theorem explain_settled (name : String) : g.settled.explain name =
    (g.explain name).map (Option.map fun e => { e with members := e.members.settled }) := by
  have hsupertype : g.settled.supertype = g.supertype := rfl
  rw [explain, resolve_settled, explain]
  cases g.resolve name with
  | error f => rfl
  | ok found =>
    cases found with
    | none => rfl
    | some found =>
      rw [ok_bind, ok_bind]
      dsimp only
      rw [hsupertype, members_settled, usagesOutside_settled]
      cases found.symbol.inheritedTypes.mapM g.supertype with
      | error f => rfl
      | ok inherits =>
        rw [ok_bind, ok_bind]
        cases g.members name with
        | error f => rfl
        | ok members =>
          rw [map_ok, ok_bind, ok_bind]
          cases g.usagesOutside name found.file <;> rfl

/-- **Types that are not written change no answer.** -/
theorem toJson_answer_settled (q : Query) :
    (q.answer g.settled).map Answer.toJson = (q.answer g).map Answer.toJson := by
  cases q with
  | resolve name => rw [Query.answer, Query.answer, resolve_settled]
  | search text kind limit => rw [Query.answer, Query.answer, search_settled]
  | usages name => rw [Query.answer, Query.answer, usages_settled]
  | members name =>
    rw [Query.answer, Query.answer, members_settled]
    cases g.members name with
    | error f => rfl
    | ok found => exact congrArg Except.ok (MemberSet.toJson_settled found)
  | explain name =>
    rw [Query.answer, Query.answer, explain_settled]
    cases g.explain name with
    | error f => rfl
    | ok found =>
      cases found with
      | none => rfl
      | some e =>
        refine congrArg Except.ok (congrArg Json.obj ?_)
        dsimp only [Explanation.toMembers]
        rw [MemberSet.toJson_settled]
  | stats largest => rw [Query.answer, Query.answer, stats_settled]
  | overview fragment => rw [Query.answer, Query.answer, overview_settled]

end Graph

end DeclGraph
