/-
  DeclGraph — configuration in environment variables.

  The variable of a field has the name of our prefix, the section and the field,
  with two underscores between them; letter case does not count.  The value of a
  list is a JSON text.  A whole section may be given as one JSON text too, and
  then the variables of its fields win.

  * `environmentLayer` reads the variables of all sections;
  * `Failure` is why no configuration comes about.
-/
import DeclGraph.Config.Validation
import DeclGraph.Host
import DeclGraph.Json.Parser
import DeclGraph.Text.Case

namespace DeclGraph.Config

/-- Why no configuration comes about. -/
inductive Failure where
  | problem (problem : Problem)
  /-- the environment variable of a field is no JSON text -/
  | variable_ (field : String)
  | fault (fault : Fault)
deriving DecidableEq, Repr

/-- What it means for the variable of a field that its text is not read. -/
def unreadVariable (key : String) : Json.Unread → Failure
  | .malformed | .longInteger _ => .variable_ key
  | .tooDeep => .fault .tooDeep

/-- What the names of all variables begin with. -/
def variableHead : String := "symgraph__"

/-- The fields that hold lists. -/
def listFields : List (String × String) :=
  [("logging", "outputs"), ("parsers", "clang_args"), ("parsers", "skip_dirs")]

/-- The names of all variables that are read. -/
def variableNames : List String :=
  let sections := match ({} : Config).toJson with
    | .obj sections => sections
    | _ => []
  sections.flatMap fun (sect, fields) =>
    let fieldNames := match fields with
      | .obj ms => ms.map Prod.fst
      | _ => []
    (variableHead ++ sect) :: fieldNames.map fun key => variableHead ++ sect ++ "__" ++ key

/-- Puts a value at a place below an object; a place below anything else is
    lost. -/
def putAt (value : Json) : List String → List (String × Json) → List (String × Json)
  | [], ms => ms
  | [key], ms => Table.put key value ms
  | key :: keys, ms =>
    match (Json.member? key ms).getD (.obj []) with
    | .obj inner => Table.put key (.obj (putAt value keys inner)) ms
    | _ => ms

/-- The value of the variable of a field: a JSON text for lists, unless it is
    empty. -/
def variableValue (h : Host) (place : List String) (text : String) : Except Failure Json :=
  match place with
  | [sect, key] =>
    if listFields.contains (sect, key) && text != "" then
      (Json.read h.readDepth text).mapError (unreadVariable key)
    else .ok (.str text)
  | _ => .ok (.str text)

/-- The variables of the fields of a section as an object. -/
def fieldVariables (h : Host) (sect : String) (env : List (String × String)) :
    Except Failure (List (String × Json)) :=
  env.foldlM (fun ms (name, text) => do
    match Text.after? (variableHead ++ sect ++ "__").toList name.toList with
    | none => return ms
    | some rest =>
      let keys := (Text.splitAtPair '_' '_' rest).map String.ofList
      return putAt (← variableValue h (sect :: keys) text) keys ms) []

/-- The members of a section with their keys in lower case. -/
def lowerKeys (ms : List (String × Json)) : List (String × Json) :=
  ms.foldl (fun done m => Table.put (Text.toLower m.1) m.2 done) []

/-- One section from its variables; `none` if there are none. -/
def sectionVariables (h : Host) (sect : String) (env : List (String × String)) :
    Except Failure (Option Json) := do
  match env.lookup (variableHead ++ sect) with
  | none =>
    let fields ← fieldVariables h sect env
    return if fields.isEmpty then none else some (.obj (lowerKeys fields))
  | some text =>
    match ← (Json.read h.readDepth text).mapError (unreadVariable sect) with
    | .obj ms =>
      let fields ← fieldVariables h sect env
      return some (.obj (lowerKeys (fields.foldl (fun done m => Table.put m.1 m.2 done) ms)))
    | .null => return none
    | j => return some j

/-- The sections in environment variables.  A failure names the field of which the
    value is no JSON text. -/
def environmentLayer (h : Host) (env : List (String × String)) :
    Except Failure (List (String × Json)) := do
  let lower := (env.map fun v => (Text.toLower v.1, v.2)).foldl
    (fun done v => Table.put v.1 v.2 done) []
  let found ← sectionNames.mapM fun sect => do
    return (← sectionVariables h sect lower).map (sect, ·)
  return found.filterMap id

end DeclGraph.Config
