/-
  DeclGraph — results of tools.

  A result is an object.  Every one has a summary in one line, and a list that
  is cut also says how long it is.

  * `explanationResult`, `searchResult`, `statsResult` and `overviewResult` are
    the results of questions;
  * `scanResult` and `loadResult` are those of new graphs;
  * `notFoundResult` says that there is nothing of a name.
-/
import DeclGraph.Config.Basic
import DeclGraph.Query.Basic
import DeclGraph.Scan
import DeclGraph.Server.Call
import DeclGraph.Wording

namespace DeclGraph

/-! ## Parts -/

/-- The front of a list with the length of all of it. -/
def cappedItems (limit : Int) (items : List Json) : Json :=
  .obj [("items", .arr (upTo limit items)), ("total", .int items.length),
    ("truncated", .bool (limit < items.length))]

/-- The result of a look-up that finds nothing; later members win. -/
def notFoundResult (kind name : String) (more : List (String × Json) := []) : Json :=
  .ofMembers ([("found", .bool false), (kind, .str name)] ++ more ++
    [("summary", .str (kind ++ " '" ++ name ++ "' not found"))])

/-! ## Questions -/

/-- An explanation in one line. -/
def Explanation.summary (e : Explanation) : String :=
  let members := [Wording.counted e.members.properties.length "property" (some "properties"),
    Wording.counted e.members.methods.length "method"]
  let inheritors := if e.usages.inheritedBy = [] then []
    else [Wording.counted e.usages.inheritedBy.length "inheritor"]
  let extensions := if e.usages.extendedIn = [] then []
    else [Wording.counted e.usages.extendedIn.length "extension"]
  let unused := if e.usages.any then [] else ["no detected usages"]
  e.resolved.kind.name ++ " " ++ e.resolved.symbol.name.plain ++ " in " ++ e.resolved.file.plain ++
    ": " ++ ", ".intercalate (members ++ inheritors ++ extensions ++ unused)

/-- The result of explaining a name. -/
def explanationResult (limits : Limits) (name : String) : Option Explanation → Json
  | none => notFoundResult "symbol" name
  | some e =>
    .obj [("found", .bool true), ("symbol", e.resolved.toJson),
      ("inherits", .arr (e.inherits.map Supertype.toJson)),
      ("members", .obj (e.members.roles.map fun (role, items) =>
        (role, cappedItems limits.membersShown items))),
      ("usages", .obj [
        ("inherited_by", .arr (e.usages.inheritedBy.map Inheritor.toJson)),
        ("extended_in", .arr (e.usages.extendedIn.map ExtensionSite.toJson)),
        ("referenced_in", cappedItems limits.referencesShown (e.usages.referencedIn.map .str)),
        ("has_usages", .bool e.usages.any)]),
      ("summary", .str e.summary)]

/-- What no search may find more of. -/
def searchCap : Int := 500

/-- The number of hits that are shown. -/
def searchLimit (limits : Limits) (limit : Option Int) : Int :=
  min (limit.getD limits.searchDefault) searchCap

/-- The result of a search that went one hit beyond what is shown, so that a
    longer list is known to be cut. -/
def searchResult (shown : Int) (text : String) (kind : Option SymbolKind) (hits : List SearchHit) :
    Json :=
  let front := upTo shown hits
  let truncated : Bool := shown < hits.length
  let label := "'" ++ Wording.shorten text ++ "'"
  let summary := match front with
    | [] => "no matches for " ++ label
    | _ => Wording.counted front.length "match" (some "matches") ++ " for " ++ label ++ ": " ++
      Wording.nameList (front.map (·.name.plain))
  .obj [("query", .str text), ("kind", .str ((kind.map SymbolKind.name).getD ToolCall.anyKind)),
    ("results", .arr (front.map SearchHit.toJson)), ("truncated", .bool truncated),
    ("summary", .str (summary ++ if truncated then " (truncated)" else ""))]

/-- The result of counting. -/
def statsResult (s : GraphStats) : Json :=
  let summary := Wording.counted s.units "unit" ++ ", " ++ Wording.counted s.types "type" ++ ", " ++
    Wording.counted (s.count .function) "function"
  match s.toJson with
  | .obj ms => .obj (ms ++ [("summary", .str summary)])
  | j => j

/-- The sections of an overview that are not empty. -/
def UnitOverview.filled (o : UnitOverview) : List (SymbolKind × List Symbol) :=
  o.sections.filter fun sect => !sect.2.isEmpty

/-- The result of an overview of the one unit it is for. -/
def unitResult (limits : Limits) (unit : String) (sections : List (SymbolKind × List Symbol)) :
    Json :=
  let counts := sections.map fun (kind, symbols) =>
    Wording.counted symbols.length kind.name (some kind.bucket)
  .obj [("found", .bool true), ("file", .str unit),
    ("sections", .obj (sections.map fun (kind, symbols) =>
      (kind.bucket, cappedItems limits.overviewItems (symbols.map Symbol.toJson)))),
    ("summary", .str (unit ++ ": " ++
      if counts = [] then "no declarations" else ", ".intercalate counts))]

/-- The result of an overview: all units that are meant are listed if there are
    several. -/
def overviewResult (limits : Limits) (o : UnitOverview) : Json :=
  match o.hits with
  | [] => notFoundResult "file" o.query
  | [unit] => unitResult limits unit o.filled
  | hits =>
    .obj [("found", .bool false), ("file", .str o.query),
      ("matches", .ofTexts (upTo limits.overviewItems hits)), ("total_matches", .int hits.length),
      ("summary", .str (Wording.counted hits.length "unit" ++ " match '" ++ o.query ++ "'"))]

/-! ## Graphs -/

/-- Where the snapshot of a scan went, or why there is none. -/
def snapshotMembers : Except Problem Path → List (String × Json)
  | .ok path => [("snapshot", .str path.toText)]
  | .error p => [("snapshot", .null), ("snapshot_error", .str p.message)]

/-- The result of a scan. -/
def scanResult (found : ScanResult) (snapshot : Except Problem Path) : Except Fault Json := do
  let types := found.graph.typeMap.size
  let edges := found.graph.edges.length
  let summary ← Wording.buildSummary found.stats.processed found.stats.errors types edges
    found.duration
  return .obj ([("repo_path", .str found.root.toText),
    ("project", .ofOption Project.toJson found.project), ("stats", found.stats.toJson),
    ("types", .int types), ("edges", .int edges), ("duration_seconds", found.duration.rounded)] ++
    snapshotMembers snapshot ++ [("summary", .str summary)])

/-- The result of loading a snapshot. -/
def loadResult (path : Path) (g : Graph) : Json :=
  .obj [("snapshot", .str path.toText), ("repo_path", g.repoPath), ("generated_at", g.generatedAt),
    ("units", .int g.unitCount), ("types", .int g.typeMap.size), ("edges", .int g.edges.length),
    ("summary", .str ("loaded " ++ Wording.counted g.unitCount "unit" ++ ", " ++
      Wording.counted g.typeMap.size "type"))]

end DeclGraph
