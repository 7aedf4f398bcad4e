/-
  DeclGraph — dialects of syntax dumps.

  * `Dialect.ofSuffix?` chooses the dialect by the ending of a source file;
  * `defaultAccess` is the level of a declaration that states none.
-/
import DeclGraph.Access
import DeclGraph.Path

namespace DeclGraph

/-- The shape of a syntax dump. -/
inductive Dialect where
  /-- the structure of a Swift file -/
  | swift
  /-- the syntax tree of an Objective-C or C file -/
  | objc
deriving DecidableEq, Inhabited, Repr

namespace Dialect

/-- The name of a dialect. -/
def name : Dialect → String
  | swift => "swift"
  | objc => "objc"

/-- The dialect of a name. -/
def ofName? (s : String) : Option Dialect := [swift, objc].find? (·.name == s)

/-- Every dialect is read back from its name. -/
theorem ofName?_name (d : Dialect) : ofName? d.name = some d := by cases d <;> decide

/-- The dialect that a value names. -/
def ofJson (j : Json) : Except Fault Dialect :=
  match j.text?.bind ofName? with
  | some d => .ok d
  | none => .error (.unknownDialect j)

/-- The dialect of source files with an ending. -/
def ofSuffix? : String → Option Dialect
  | ".swift" => some swift
  | ".h" | ".m" | ".mm" => some objc
  | _ => none

end Dialect

/-- The access level of a declaration in a unit that states none: headers are
    public, all other files internal. -/
def defaultAccess (unit : String) : Access :=
  if (Path.ofText unit).suffix = ".h" then .public_ else .internal

end DeclGraph
