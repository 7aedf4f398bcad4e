/-
  DeclGraph — reports of commands.

  * `explanationLines` and `sectionLines` are reports in lines;
  * `hitGrid`, `totalsGrid`, `largestGrid` and `scanGrid` are those in tables;
  * `scanReport` is the report of a scan as an object.
-/
import DeclGraph.Config.Basic
import DeclGraph.Display.Grid
import DeclGraph.Query.Basic
import DeclGraph.Scan
import DeclGraph.Wording

namespace DeclGraph.Cli

/-! ## Lists -/

/-- Names with commas between them; all of them have to be texts. -/
def joined (names : List Json) : Except Fault String := do
  let texts ← names.mapM fun j => match j with
    | .str s => .ok s
    | _ => .error .wrongType
  return ", ".intercalate texts

/-- How many items of a list are not shown. -/
def moreLines (limit : Int) (count : Nat) : List String :=
  if limit < count then ["  ... +" ++ toString (count - limit) ++ " more"] else []

/-- The first lines of a list, and how many more there are. -/
def cappedLines (limit : Int) (lines : List String) : List String :=
  upTo limit lines ++ moreLines limit lines.length

/-- A heading with a count. -/
def heading (label : String) (count : Nat) : String := label ++ " (" ++ toString count ++ "):"

/-! ## Explanations -/

/-- A member with its type. -/
def memberLine (m : Member) : String :=
  "  " ++ m.name.plain ++ if m.typeName.truthy then ": " ++ m.typeName.plain else ""

/-- The members of a role. -/
def memberLines (label : String) (members : List Member) (limit : Int) : List String :=
  if members = [] then []
  else heading label members.length :: cappedLines limit (members.map memberLine)

/-- A supertype with its place. -/
def supertypeText (t : Supertype) : String :=
  t.name.plain ++ " (" ++ (if t.isExternal then "external" else t.file.plain) ++ ")"

/-- An extension with what it adds. -/
def extensionLine (e : ExtensionSite) : Except Fault String := do
  let added ← joined e.conformances
  return "Extended in: " ++ e.file ++ if e.conformances = [] then "" else " adds " ++ added

/-- The usages of a name. -/
def usageLines (limits : Limits) (u : Usages) : Except Fault (List String) := do
  let inheritors := u.inheritedBy.map fun i => i.name.plain ++ " (" ++ i.file.plain ++ ")"
  let extensions ← u.extendedIn.mapM extensionLine
  return (if inheritors = [] then [] else ["Inherited by: " ++ ", ".intercalate inheritors]) ++
    extensions ++
    (if u.referencedIn = [] then []
      else ["Referenced in: " ++ Wording.nameList u.referencedIn limits.referencesShown]) ++
    if u.any then [] else ["No detected usages (name-based analysis)"]

/-- The report of an explanation. -/
def explanationLines (limits : Limits) (e : Explanation) : Except Fault (List String) := do
  let symbol := e.resolved.symbol
  let usages ← usageLines limits e.usages
  return [e.resolved.kind.name ++ " " ++ symbol.name.plain, "File: " ++ e.resolved.file.plain,
      "Access: " ++ symbol.access.name] ++
    (if e.inherits = [] then []
      else ["Inherits: " ++ ", ".intercalate (e.inherits.map supertypeText)]) ++
    memberLines "Properties" e.members.properties limits.membersShown ++
    memberLines "Methods" e.members.methods limits.membersShown ++
    memberLines "Initializers" e.members.initializers limits.membersShown ++ usages

/-! ## Units -/

/-- A symbol with its supertypes. -/
def symbolLine (s : Symbol) : Except Fault String := do
  let supertypes ← joined s.inheritedTypes
  return "  " ++ s.name.plain ++ if s.inheritedTypes = [] then "" else ": " ++ supertypes

/-- A word with its first letter in upper case. -/
def capitalized (s : String) : String :=
  match s.toList with
  | c :: cs => String.ofList (c.toUpper :: cs)
  | [] => ""

/-! ## Tables -/

/-- The table of hits. -/
def hitGrid (hits : List SearchHit) : Except Fault Grid := do
  let rows ← hits.mapM fun h => do
    return [h.name.plain, h.kind.name, h.file, ← joined h.inheritedTypes]
  return { columns := [{ header := "Name" }, { header := "Kind" }, { header := "File" },
    { header := "Inherits" }], rows }

/-- The table of counts. -/
def totalsGrid (s : GraphStats) : Grid where
  columns := [{}, { alignment := .right }]
  rows := ["units", toString s.units] :: ["types", toString s.types] ::
    s.counts.map fun (kind, n) => [kind.bucket, toString n]

/-- The table of the largest units. -/
def largestGrid (s : GraphStats) : Grid where
  columns := [{ header := "File" }, { header := "Symbols", alignment := .right }]
  rows := s.largest.map fun (unit, n) => [unit, toString n]

/-! ## Scans -/

/-- The table of a scan. -/
def scanGrid (found : ScanResult) (snapshot : Path) : Grid where
  columns := [{}, {}]
  rows := (found.project.map fun p => ["Project", p.name ++ " (" ++ p.kind.name ++ ")"]).toList ++
    [["Units", toString found.stats.processed ++ "/" ++ toString found.stats.total],
      ["Types", toString found.graph.typeMap.size], ["Edges", toString found.graph.edges.length],
      ["Snapshot", snapshot.toText]]

/-- The report of a scan. -/
def scanReport (found : ScanResult) (snapshot : Path) : Json :=
  .obj [("repo_path", .str found.root.toText),
    ("project", .ofOption Project.toJson found.project), ("snapshot", .str snapshot.toText),
    ("stats", found.stats.toJson), ("types", .int found.graph.typeMap.size),
    ("edges", .int found.graph.edges.length), ("duration_seconds", found.duration.rounded)]

end DeclGraph.Cli
