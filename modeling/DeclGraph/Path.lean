/-
  DeclGraph — paths.

  A path is a root and a list of names.  Empty names and single dots vanish
  when a path is read; two dots stay.

  * `Path.ofText` and `Path.toText` read and write a path;
  * `Path.join` puts a path below another, unless it has a root of its own;
  * `Path.suffix` is the ending of the last name;
  * `Path.resolve` makes a path absolute and removes the double dots;
  * `Path.expand` puts a home directory for a tilde;
  * `Path.isTooLong` says that the system takes no path of this length.
-/
import DeclGraph.Fault
import DeclGraph.Host
import DeclGraph.Text.Utf8

namespace DeclGraph

/-- A path. -/
structure Path where
  /-- `/` or `//` for an absolute path, empty for a relative one. -/
  root : String
  /-- The names from the root on. -/
  names : List String
deriving DecidableEq, Inhabited, Repr

namespace Path

/-- The path of everything. -/
def top : Path := ⟨"/", []⟩

/-! ## Texts -/

/-- The root of a path text: exactly two slashes at the front are kept. -/
def rootOf : List Char → String
  | '/' :: '/' :: '/' :: _ => "/"
  | '/' :: '/' :: _ => "//"
  | '/' :: _ => "/"
  | _ => ""

/-- The names in a path text. -/
def namesOf (s : String) : List String :=
  ((Text.splitAtChar '/' s.toList).map String.ofList).filter fun n => n != "" && n != "."

/-- Reads a path. -/
def ofText (s : String) : Path := ⟨rootOf s.toList, namesOf s⟩

/-- Writes a path; the empty one is a dot. -/
def toText (p : Path) : String :=
  if p.root = "" ∧ p.names = [] then "." else p.root ++ "/".intercalate p.names

/-! ## Parts -/

/-- Whether a path has a root. -/
def isAbsolute (p : Path) : Bool := p.root != ""

/-- The path `q` as seen from `p`. -/
def join (p q : Path) : Path := if q.isAbsolute then q else ⟨p.root, p.names ++ q.names⟩

/-- The last name, or nothing. -/
def name (p : Path) : String := p.names.getLastD ""

/-- The path without its last name. -/
def parent (p : Path) : Path := ⟨p.root, p.names.dropLast⟩

/-- Cuts a name at its last dot, unless that is its first or last character. -/
def splitName (n : String) : String × String :=
  let cs := n.toList
  let ending := cs.reverse.takeWhile (· ≠ '.')
  let at_ := cs.length - ending.length - 1
  if ending.length + 1 < cs.length ∧ ending ≠ [] then
    (String.ofList (cs.take at_), String.ofList (cs.drop at_))
  else (n, "")

/-- The ending of the last name, with its dot. -/
def suffix (p : Path) : String := (splitName p.name).2

/-- The last name without its ending. -/
def stem (p : Path) : String := (splitName p.name).1

/-! ## Resolving -/

/-- Goes on by one name: two dots lead up. -/
def step (here : List String) (n : String) : List String :=
  if n = ".." then here.dropLast else here ++ [n]

/-- Removes double dots together with the names before them. -/
def collapse (names : List String) : List String := names.foldl step []

/-- The absolute path of `p` seen from `base`, without double dots. -/
def resolve (base p : Path) : Path :=
  let q := base.join p
  ⟨q.root, collapse q.names⟩

/-! ## Home directories -/

/-- A relative path that begins with a tilde and perhaps the name of a user begins
    with a home directory. -/
def expand (h : Host) (p : Path) : Except Fault Path :=
  match p.isAbsolute, p.names with
  | false, first :: rest =>
    match first.toList with
    | '~' :: user =>
      match h.home (String.ofList user) with
      | some home => .ok ((ofText home).join ⟨"", rest⟩)
      | none => .error .homeless
    | _ => .ok p
  | _, _ => .ok p

/-! ## Lengths -/

/-- The most octets of a name. -/
def maxNameLength : Nat := 255

/-- The most octets of the text of a path. -/
def maxLength : Nat := 4095

/-- Whether the system takes no name of this length. -/
def isLongName (n : String) : Bool := maxNameLength < (Utf8.encode n).length

/-- Whether the system takes no path of this length. -/
def isTooLong (p : Path) : Bool := maxLength < (Utf8.encode p.toText).length

/-- Whether a path holds a null character. -/
def hasNull (p : Path) : Bool := p.toText.toList.contains '\x00'

end Path

end DeclGraph
