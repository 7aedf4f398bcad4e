/-
  DeclGraph — questions about a graph.

  * `Query` lists the questions, and `Query.answer` answers them;
  * every kind of answer has its own type, and an answer is one of them.
-/
import DeclGraph.Query.Explain
import DeclGraph.Query.Overview
import DeclGraph.Query.Search

namespace DeclGraph

/-- A question about a graph. -/
inductive Query where
  | resolve (name : String)
  | search (text : String) (kind : Json) (limit : Option Int)
  | usages (name : String)
  | members (name : String)
  | explain (name : String)
  | stats (largest : Option Int)
  | overview (fragment : String)
deriving DecidableEq, Inhabited, Repr

/-- An answer to a question. -/
inductive Answer where
  | resolved (found : Option Resolved)
  | hits (found : List SearchHit)
  | usages (found : Option Usages)
  | members (found : MemberSet)
  | explanation (found : Option Explanation)
  | stats (found : GraphStats)
  | overview (found : UnitOverview)
deriving DecidableEq, Inhabited

/-- The answer of a graph to a question. -/
def Query.answer (g : Graph) : Query → Except Fault Answer
  | resolve name => (g.resolve name).map .resolved
  | search text kind limit => (g.search text kind limit).map .hits
  | usages name => (g.usages name).map .usages
  | members name => (g.members name).map .members
  | explain name => (g.explain name).map .explanation
  | stats largest => .ok (.stats (g.stats largest))
  | overview fragment => .ok (.overview (g.overview fragment))

/-- A value as JSON, or `null`. -/
def Json.ofOption {α : Type _} (f : α → Json) : Option α → Json
  | some x => f x
  | none => .null

/-- An answer as JSON; what is not found is `null`. -/
def Answer.toJson : Answer → Json
  | resolved found => .ofOption Resolved.toJson found
  | hits found => .arr (found.map SearchHit.toJson)
  | usages found => .ofOption Usages.toJson found
  | members found => found.toJson
  | explanation found => .ofOption Explanation.toJson found
  | stats found => found.toJson
  | overview found => found.toJson

end DeclGraph
