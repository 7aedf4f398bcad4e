/-
  DeclGraph — calls of tools.

  A client of the server calls tools by name, with an object of arguments.  Two
  tools replace the graph of the server and four ask it something.

  * `ToolCall` is a call whose arguments have been checked;
  * `ToolCall.ofJson` checks the arguments: every one has to be known, and those
    without a default have to be there;
  * `ToolError` is what a client gets if a tool gives no result.
-/
import DeclGraph.Config.Conversion
import DeclGraph.Symbol.Kind

namespace DeclGraph

/-- A call of a tool. -/
inductive ToolCall where
  /-- scan a code base and publish its graph -/
  | initRepo (path : String)
  /-- publish the graph of a snapshot -/
  | loadGraph (path : String)
  | explainSymbol (name : String)
  /-- search names for a text, in one kind of symbols or the usual ones -/
  | searchSymbols (text : String) (kind : Option SymbolKind) (limit : Option Int)
  | codebaseStats
  | fileOverview (fragment : String)
deriving DecidableEq, Inhabited, Repr

/-- Why a call cannot be done. -/
inductive CallFlaw where
  | unknownTool
  | badArguments
deriving DecidableEq, Repr

/-- A tool broke down.  Whatever the fault was, the client of the server is told that
    a tool failed. -/
structure ToolError where
  cause : Fault
deriving DecidableEq, Repr

namespace ToolCall

/-! ## Arguments -/

/-- A tool with arguments of the given names and no others. -/
def taking (names : List String) (args : List (String × Json)) : Except CallFlaw Unit :=
  if args.all fun a => names.contains a.1 then .ok () else .error .badArguments

/-- A text that has to be there. -/
def textArg (key : String) (args : List (String × Json)) : Except CallFlaw String :=
  match Json.member? key args with
  | some (.str s) => .ok s
  | _ => .error .badArguments

/-- The name of a search without a kind. -/
def anyKind : String := "all"

/-- The kind that a search is restricted to. -/
def kindArg (args : List (String × Json)) : Except CallFlaw (Option SymbolKind) :=
  match (Json.member? "kind" args).getD (.str anyKind) with
  | .str name =>
    if name = anyKind then .ok none
    else match SymbolKind.shown.find? (·.name == name) with
      | some k => .ok (some k)
      | none => .error .badArguments
  | _ => .error .badArguments

/-- The number of hits that a search may have, at least one if given. -/
def limitArg (args : List (String × Json)) : Except CallFlaw (Option Int) :=
  match Json.memberOrNull "limit" args with
  | .null => .ok none
  | j => match Config.readInt j with
    | .ok n => if n < 1 then .error .badArguments else .ok (some n)
    | .error _ => .error .badArguments

/-! ## Calls -/

/-- Reads the arguments of a tool. -/
def ofJson (tool : String) (args : List (String × Json)) : Except CallFlaw ToolCall := do
  match tool with
  | "init_repo" =>
    taking ["repo_path"] args
    return initRepo (← textArg "repo_path" args)
  | "load_graph" =>
    taking ["snapshot_path"] args
    return loadGraph (← textArg "snapshot_path" args)
  | "explain_symbol" =>
    taking ["symbol_name"] args
    return explainSymbol (← textArg "symbol_name" args)
  | "search_symbols" =>
    taking ["query", "kind", "limit"] args
    return searchSymbols (← textArg "query" args) (← kindArg args) (← limitArg args)
  | "get_codebase_stats" =>
    taking [] args
    return codebaseStats
  | "get_file_overview" =>
    taking ["file_path"] args
    return fileOverview (← textArg "file_path" args)
  | _ => throw .unknownTool

end ToolCall

end DeclGraph
