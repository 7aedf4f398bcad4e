/-
  Lists that are cut in the results of the server.

  A list that is cut comes with its full length and a flag that items are missing.

  * `CutList.Cuts`: the items are the first ones, the length is that of the full list, and when the
    flag is right;
  * `explanationResult_cuts` and `overviewResult_cuts`: all such lists of a result.
-/
import DeclGraph.Proofs.Config.Merge
import DeclGraph.Server.Basic

namespace DeclGraph

/-! ## Fronts -/

theorem length_upTo {α : Type*} (limit : Int) (xs : List α) :
    (upTo limit xs).length = if limit < 0 then xs.length - limit.natAbs
      else min limit.toNat xs.length := by
  unfold upTo
  split <;> simp

/-- A list that is cut, its full length, and whether items are missing. -/
structure CutList where
  items : List Json
  total : Nat
  truncated : Bool

/-- A list that is cut as an object. -/
def CutList.toJson (c : CutList) : Json :=
  .obj [("items", .arr c.items), ("total", .int c.total), ("truncated", .bool c.truncated)]

/-- What a list that is cut to a limit says of the full one.  Its flag is wrong of an empty list if
    the limit is negative. -/
structure CutList.Cuts (c : CutList) (limit : Int) (full : List Json) : Prop where
  front : c.items <+: full
  total_eq : c.total = full.length
  truncated_iff : (c.truncated = true ↔ c.items.length < c.total) ↔ 0 ≤ limit ∨ full ≠ []

/-- **What the server says of a list that it cuts.** -/
theorem exists_cappedItems (limit : Int) (full : List Json) :
    ∃ c : CutList, cappedItems limit full = c.toJson ∧ c.Cuts limit full := by
  refine ⟨⟨upTo limit full, full.length, limit < full.length⟩, rfl, upTo_prefix _ _, rfl, ?_⟩
  dsimp only
  rw [decide_eq_true_eq, length_upTo, ← List.length_pos_iff]
  split <;> omega

/-- The members of an object that holds lists under keys, each of them cut. -/
def CutsAll (limit : Int) (full : List (String × List Json)) (ms : List (String × Json)) : Prop :=
  List.Forall₂ (fun entry m => m.1 = entry.1 ∧
    ∃ c : CutList, m.2 = c.toJson ∧ c.Cuts limit entry.2) full ms

theorem cutsAll_map (limit : Int) (full : List (String × List Json)) :
    CutsAll limit full (full.map fun entry => (entry.1, cappedItems limit entry.2)) := by
  rw [CutsAll, List.forall₂_map_right_iff, List.forall₂_same]
  exact fun entry _ => ⟨rfl, exists_cappedItems limit entry.2⟩

/-! ## Results -/

/-- The lists of an explanation: the members of each role, and the units that refer to the name. -/
structure Explanation.CutIn (e : Explanation) (limits : Limits) (result : Json) : Prop where
  members : ∃ ms, result.at? ["members"] = some (.obj ms) ∧
    CutsAll limits.membersShown e.members.roles ms
  references : ∃ c : CutList, result.at? ["usages", "referenced_in"] = some c.toJson ∧
    c.Cuts limits.referencesShown (e.usages.referencedIn.map .str)

theorem explanationResult_cuts (limits : Limits) (name : String) (e : Explanation) :
    e.CutIn limits (explanationResult limits name (some e)) where
  members := ⟨_, rfl, cutsAll_map limits.membersShown e.members.roles⟩
  references := by
    obtain ⟨c, hc, hcuts⟩ :=
      exists_cappedItems limits.referencesShown (e.usages.referencedIn.map .str)
    exact ⟨c, congrArg some hc, hcuts⟩

/-- The lists of an overview: the symbols of each kind that there are in the unit, or the units if
    there are several. -/
structure UnitOverview.CutIn (o : UnitOverview) (limits : Limits) (result : Json) : Prop where
  sections : ∀ unit, o.hits = [unit] → ∃ ms, result.at? ["sections"] = some (.obj ms) ∧
    CutsAll limits.overviewItems
      (o.filled.map fun sect => (sect.1.bucket, sect.2.map Symbol.toJson)) ms
  units : 2 ≤ o.hits.length → ∃ front, result.at? ["matches"] = some (.ofTexts front) ∧
    front <+: o.hits ∧ result.at? ["total_matches"] = some (.int o.hits.length)

theorem overviewResult_cuts (limits : Limits) (o : UnitOverview) :
    o.CutIn limits (overviewResult limits o) where
  sections unit hunit := by
    rw [overviewResult, hunit]
    refine ⟨_, rfl, ?_⟩
    have hcuts := cutsAll_map limits.overviewItems
      (o.filled.map fun sect => (sect.1.bucket, sect.2.map Symbol.toJson))
    rwa [List.map_map] at hcuts
  units hseveral := by
    rw [overviewResult]
    match h : o.hits, hseveral with
    | u :: v :: rest, _ =>
      exact ⟨upTo limits.overviewItems (u :: v :: rest), rfl, upTo_prefix _ _, rfl⟩

end DeclGraph
