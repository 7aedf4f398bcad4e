/-
  Searching with the server.

  The tool searches for one hit more than it shows, so that it knows whether the list is cut.

  * `searchResult_of_take`: what the result says of all hits;
  * `call_searchSymbols`: the result for the published graph.
-/
import DeclGraph.Proofs.Query.Limits
import DeclGraph.Server.Basic

namespace DeclGraph

/-- The number of hits that are shown. -/
theorem searchLimit_nonneg {limits : Limits} {limit : Option Int} (hlimit : ∀ n ∈ limit, 1 ≤ n)
    (hdefault : 0 ≤ limits.searchDefault) : 0 ≤ searchLimit limits limit := by
  cases limit with
  | none =>
    rw [searchLimit, Option.getD_none, searchCap]
    omega
  | some n =>
    have hn := hlimit n rfl
    rw [searchLimit, Option.getD_some, searchCap]
    omega

/-- **A result of one hit more than is shown** has the first hits, and says that the list is cut if
    there are more. -/
theorem searchResult_of_take {shown : Int} (hshown : 0 ≤ shown) (text : String)
    (kind : Option SymbolKind) (hits : List SearchHit) :
    let result := searchResult shown text kind (hits.take (shown + 1).toNat)
    result.valueAt "results" = .arr ((hits.take shown.toNat).map SearchHit.toJson) ∧
      result.valueAt "truncated" = .bool (decide (shown < hits.length)) := by
  have hfront : upTo shown (hits.take (shown + 1).toNat) = hits.take shown.toNat := by
    rw [upTo, if_neg (by omega), List.take_take]
    congr 1
    omega
  have hmore : shown < (hits.take (shown + 1).toNat).length ↔ shown < hits.length := by
    rw [List.length_take]
    omega
  constructor
  · rw [← hfront]
    rfl
  · rw [← decide_eq_decide.2 hmore]
    rfl

/-- **The tool answers with the first hits** of a search without a limit, in a built graph. -/
theorem Server.call_searchSymbols {s : Server} {g : Graph} (hg : g.Built)
    (hcurrent : s.session.current = .ok g) (around : Surroundings) {text : String}
    {kind : Option SymbolKind} {hits : List SearchHit}
    (hhits : g.search text (.ofText? (kind.map SymbolKind.name)) none = .ok hits)
    {limit : Option Int} (hlimit : ∀ n ∈ limit, 1 ≤ n)
    (hdefault : 0 ≤ s.config.limits.searchDefault) :
    s.call around (.searchSymbols text kind limit) = (s, .ok (searchResult
      (searchLimit s.config.limits limit) text kind
        (hits.take (searchLimit s.config.limits limit + 1).toNat))) := by
  have hshown := searchLimit_nonneg hlimit hdefault
  have hlimited := hg.search_limited text (.ofText? (kind.map SymbolKind.name))
    (n := searchLimit s.config.limits limit + 1) (by omega)
  rw [hhits, map_ok] at hlimited
  rw [call, runTool, asked, hcurrent]
  simp only [searched, hlimited, ok_bind]
  rfl

end DeclGraph
