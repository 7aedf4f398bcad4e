/-
  DeclGraph — faults.

  A fault says why a value cannot be used: it is of the wrong type, lacks a
  key, or is not one of the words allowed at its place.  What the host refuses
  to do is a fault too.

  * `Fault.message?` is the text of a fault, where it has one.
-/
import DeclGraph.Json.Literal

namespace DeclGraph

/-- Why a value cannot be used. -/
inductive Fault where
  /-- a value of another type was needed -/
  | wrongType
  /-- an object lacks a key -/
  | missingKey (key : String)
  /-- a value does not name a symbol kind -/
  | unknownKind (value : Json)
  /-- a value does not name a dialect -/
  | unknownDialect (value : Json)
  /-- a value does not name an access level -/
  | unknownAccess (value : Json)
  /-- a symbol of the given name has no kind, and none is implied -/
  | kindless (name : Json)
  /-- a text does not name a bucket -/
  | unknownBucket (bucket : String)
  /-- a text is not a number, or a number is not an integer's -/
  | badNumber
  /-- variables cannot be searched for -/
  | unsearchable
  /-- a duration is negative -/
  | negativeDuration
  /-- a document is not that of a graph; the text says why -/
  | badDocument (reason : String)
  /-- lists and objects lie too deep in one another -/
  | tooDeep
  /-- an integer has too many digits to be read or written -/
  | longInteger
  /-- a plain scalar has the form of a number or a time and is none -/
  | badScalar
  /-- a file does not hold a text -/
  | undecodable
  /-- a directory stands where a file is read -/
  | directory
  /-- a path, or a name on it, is longer than the system allows -/
  | longPath
  /-- a path holds a null character -/
  | nullInPath
  /-- the home directory of a user is not known -/
  | homeless
deriving DecidableEq, Repr

/-- The text of a fault.  Wrong types, bad numbers and what the host refuses have
    none, and a missing key is its own text. -/
def Fault.message? : Fault → Option String
  | wrongType | badNumber | tooDeep | longInteger | badScalar | undecodable | directory | longPath
  | nullInPath | homeless => none
  | missingKey key => some key
  | unknownKind v => some (v.literal ++ " is not a valid SymbolKind")
  | unknownDialect v => some (v.literal ++ " is not a valid Dialect")
  | unknownAccess v => some (v.literal ++ " is not a valid Accessibility")
  | kindless name => some ("Symbol " ++ name.literal ++ " has no recognizable kind")
  | unknownBucket bucket => some ("Unknown symbol bucket: " ++ bucket)
  | unsearchable => some "variables are not searchable"
  | negativeDuration => some "Duration must be non-negative"
  | badDocument reason => some reason

namespace Json

/-! ## Reading values that may be of the wrong type -/

/-- The members of an object. -/
def members : Json → Except Fault (List (String × Json))
  | obj ms => .ok ms
  | _ => .error .wrongType

/-- The members of an object; none for a value that does not count as present. -/
def membersOrNone (j : Json) : Except Fault (List (String × Json)) :=
  if j.truthy then j.members else .ok []

/-- The value of a key that must be there. -/
def required (key : String) (ms : List (String × Json)) : Except Fault Json :=
  match member? key ms with
  | some j => .ok j
  | none => .error (.missingKey key)

/-- The values that a value lists: the items of a list, the characters of a text
    or the keys of an object. -/
def listed : Json → Except Fault (List Json)
  | arr items => .ok items
  | str s => .ok (s.toList.map fun c => str c.toString)
  | obj ms => .ok (ms.map fun m => str m.1)
  | _ => .error .wrongType

/-- What a value lists; nothing for a value that does not count as present. -/
def listedOrNone (j : Json) : Except Fault (List Json) :=
  if j.truthy then j.listed else .ok []

end Json

end DeclGraph
