/-
  DeclGraph — running parsers.

  Every source unit is handed to the external parser of its dialect, which
  writes a syntax dump.  What a run of a parser does is an `Outcome`; a unit
  fails if its parser cannot be started, takes too long, or leaves no dump.  A
  parser that complains but leaves a dump did its work.

  * `commandLine` is the call of a parser;
  * `dumpOf` reads an outcome;
  * `parseAll` runs all units of a code base; it fails only if a parser that is
    needed is not installed, or if the host does not read a dump to its end.
-/
import DeclGraph.Discovery
import DeclGraph.Host
import DeclGraph.Json.Parser
import DeclGraph.Problem
import DeclGraph.Text.Blank

namespace DeclGraph

/-! ## Calling a parser -/

/-- The configured parser of a dialect. -/
def ParserConfig.executable (c : ParserConfig) : Dialect → String
  | .swift => c.sourceKitten
  | .objc => c.clang

/-- How to get the parser of a dialect. -/
def Dialect.installHint : Dialect → String
  | swift => "Install with: brew install sourcekitten"
  | objc => "Install Xcode command line tools: xcode-select --install"

/-- The language that a file with an ending is written in, if it is known. -/
def languageOf? : String → Option String
  | ".h" | ".m" => some "objective-c"
  | ".mm" => some "objective-c++"
  | _ => none

/-- The call of the parser `executable` on a unit. -/
def commandLine (c : ParserConfig) (u : SourceUnit) (executable : String) : List String :=
  match u.dialect with
  | .swift => [executable, "structure", "--file", u.path.toText]
  | .objc =>
    let language := match languageOf? u.path.suffix with
      | some l => ["-x", l]
      | none => []
    [executable, "-Xclang", "-ast-dump=json", "-fsyntax-only"] ++ language ++ c.clangArgs ++
      [u.path.toText]

/-- The dialects of units, each once, in the order in which they come up. -/
def dialectsOf (units : List SourceUnit) : List Dialect := (units.map SourceUnit.dialect).eraseDups

/-- The first parser that is needed and not installed. -/
def missingParser? (c : ParserConfig) (installed : String → Bool) (units : List SourceUnit) :
    Option Problem :=
  ((dialectsOf units).find? fun d => !installed (c.executable d)).map fun d =>
    .parserMissing (c.executable d) d.installHint

/-! ## Outcomes -/

/-- What a run of a parser does. -/
inductive Outcome where
  /-- it ends with a status and has written its dump and its messages -/
  | finished (status : Int) (output messages : Octets)
  /-- it does not end -/
  | hanging
  /-- it cannot be started -/
  | notStarted (reason : String)
deriving DecidableEq, Inhabited, Repr

/-- Why a parser left no dump: the last line of its messages, or its status. -/
def exitReason (status : Int) (messages : Octets) : String :=
  match (Text.lines (Text.trim (Utf8.decodeLossy messages))).getLast? with
  | some line => line
  | none => "exit code " ++ toString status

/-- What it means for a unit that its dump is not read.  Only a dump that is not
    well formed is a failure of the parser. -/
def unreadDump (unit : String) : Json.Unread → Failure
  | .malformed => .problem (.parseFailed unit "invalid JSON output: invalid JSON")
  | .tooDeep => .fault .tooDeep
  | .longInteger _ => .fault .longInteger

/-- The dump that an outcome leaves. -/
def dumpOf (h : Host) (c : ParserConfig) (unit : String) : Outcome → Except Failure Json
  | .notStarted reason => .error (.problem (.parseFailed unit reason))
  | .hanging => .error (.problem (.timeout ("parse " ++ unit) (.float c.timeout)))
  | .finished status output messages =>
    let text := Utf8.decodeLossy output
    if status ≠ 0 ∧ Text.trim text = "" then
      .error (.problem (.parseFailed unit (exitReason status messages)))
    else (Json.read h.readDepth text).mapError (unreadDump unit)

/-! ## Units -/

/-- The dumps and the failures of units, both by id and in the order of the
    units. -/
structure ParseRun where
  dumps : Table (Dialect × Json) := .empty
  failures : Table String := .empty
deriving Inhabited

/-- The number of units of a run. -/
def ParseRun.total (r : ParseRun) : Nat := r.dumps.size + r.failures.size

/-- Records what came of a unit.  A fault is not recorded: it ends the run. -/
def ParseRun.record (r : ParseRun) (u : SourceUnit) : Except Failure Json → Except Failure ParseRun
  | .ok dump => .ok { r with dumps := r.dumps.insert u.id (u.dialect, dump) }
  | .error (.problem p) => .ok { r with failures := r.failures.insert u.id p.message }
  | .error (.fault f) => .error (.fault f)

/-- Parses units. -/
def parseAll (h : Host) (c : ParserConfig) (installed : String → Bool)
    (outcome : SourceUnit → Outcome) (units : List SourceUnit) : Except Failure ParseRun :=
  match missingParser? c installed units with
  | some p => .error (.problem p)
  | none => units.foldlM (fun r u => r.record u (dumpOf h c u.id (outcome u))) {}

/-- The units of a run whose dumps are there. -/
def ParseRun.rawUnits (r : ParseRun) : List (String × Dialect × Json) := r.dumps.entries

end DeclGraph
