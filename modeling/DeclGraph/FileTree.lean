/-
  DeclGraph — directory trees.

  A file system is a tree of directories with files at the ends.  A place in
  it is a list of names from the root on.  A way is a list of names too, but two
  dots on it lead up, and each of its steps has to start from a directory.

  * `FileTree.at?` is what stands at a place, and `FileTree.follow?` is the place
    at which a way ends; `FileTree.refuses` says that the system does not look for
    it because it comes to a name that is too long;
  * `FileTree.putAt?` puts something at a place and makes the directories above
    it; it fails below a file;
  * `FileTree.makeDirs` makes the directories of a way one by one, and
    `FileTree.replaceFile` writes a file through a new file beside it; when they
    fail they give the tree that is left;
  * `at?_putAt?` says that what was put is there.
-/
import DeclGraph.Path
import DeclGraph.Table
import DeclGraph.Text.Utf8

namespace DeclGraph

/-- A file or a directory. -/
inductive FileTree where
  | file (content : Octets)
  | dir (entries : List (String × FileTree))
deriving Inhabited

namespace FileTree

/-- The directory without entries. -/
def empty : FileTree := dir []

/-- Whether something is a directory. -/
def isDir : FileTree → Bool
  | dir _ => true
  | file _ => false

/-- The content of a file. -/
def content? : FileTree → Option Octets
  | file c => some c
  | dir _ => none

/-- The entries of a directory; a file has none. -/
def entries : FileTree → List (String × FileTree)
  | dir es => es
  | file _ => []

/-! ## Places -/

/-- What stands at a place. -/
def at? : List String → FileTree → Option FileTree
  | [], t => some t
  | n :: ns, dir es => (es.lookup n).bind (at? ns)
  | _ :: _, file _ => none

/-- Puts something at a place; missing directories are made, and nothing can be
    put below a file. -/
def putAt? (new : FileTree) : List String → FileTree → Option FileTree
  | [], _ => some new
  | n :: ns, dir es =>
    (putAt? new ns ((es.lookup n).getD empty)).map fun t => dir (Table.put n t es)
  | _ :: _, file _ => none

/-- Takes away what stands at a place below the root. -/
def remove : List String → FileTree → FileTree
  | [n], dir es => dir (es.filter fun e => e.1 ≠ n)
  | n :: ns, dir es =>
    match es.lookup n with
    | some t => dir (Table.put n (remove ns t) es)
    | none => dir es
  | _, t => t

/-- Moves a file to a place at which no directory stands. -/
def rename? (source target : List String) (t : FileTree) : Option FileTree :=
  match at? source t, at? target t with
  | _, some (dir _) => none
  | some (file content), _ => putAt? (file content) target (remove source t)
  | _, _ => none

/-- What was put at a place is there. -/
theorem at?_putAt? {new t t' : FileTree} {names : List String} (h : putAt? new names t = some t') :
    at? names t' = some new := by
  induction names generalizing t t' with
  | nil => simp_all [putAt?, at?]
  | cons n ns ih =>
    cases t with
    | file c => simp [putAt?] at h
    | dir es =>
      obtain ⟨u, hu, rfl⟩ := Option.map_eq_some_iff.1 h
      simp [at?, Table.lookup_put, ih hu]

/-! ## Ways -/

/-- The place at which a way ends that starts at a place. -/
def follow? (t : FileTree) (here : List String) : List String → Option (List String)
  | [] => some here
  | n :: way =>
    match at? here t with
    | some (dir _) => follow? t (Path.step here n) way
    | _ => none

/-- Whether a name that is too long is looked for on a way that starts at a
    place. -/
def refuses (t : FileTree) (here : List String) : List String → Bool
  | [] => false
  | n :: way =>
    match at? here t with
    | some (dir _) => Path.isLongName n || refuses t (Path.step here n) way
    | _ => false

/-- What stands at the end of a way. -/
def reach? (way : List String) (t : FileTree) : Option FileTree := (t.follow? [] way).bind (at? · t)

/-- Puts something at the end of a way, as if all its directories were there. -/
def put? (new : FileTree) (way : List String) (t : FileTree) : Option FileTree :=
  putAt? new (Path.collapse way) t

/-- Writes a file at the end of a way; there must not be a directory. -/
def write? (content : Octets) (way : List String) (t : FileTree) : Option FileTree :=
  match at? (Path.collapse way) t with
  | some (dir _) => none
  | _ => put? (file content) way t

/-- Makes a directory at the end of a way unless there is one. -/
def makeDir? (way : List String) (t : FileTree) : Option FileTree :=
  match at? (Path.collapse way) t with
  | some (dir _) => some t
  | some (file _) => none
  | none => put? empty way t

/-! ## Changes in several steps -/

/-- Makes the directories of a way from a place on, one after the other, and
    gives the place at which the way ends.  A file on the way ends it early, and
    so does a name that is too long. -/
def makeDirs (here : List String) : List String → FileTree → Except FileTree (FileTree × List String)
  | [], t => .ok (t, here)
  | n :: way, t =>
    let next := Path.step here n
    if Path.isLongName n then .error t
    else match at? next t with
      | some (dir _) => makeDirs next way t
      | some (file _) => .error t
      | none => match putAt? empty next t with
        | some made => makeDirs next way made
        | none => .error t

/-- A name that begins with a text and is longer than those of all entries. -/
def freshName (head : String) (entries : List (String × FileTree)) : String :=
  let taken := (entries.map fun e => e.1.length).foldr (· + ·) 0
  head ++ String.ofList (List.replicate (taken + 1) '_')

/-- The name of the new file through which the file of a name is written. -/
def draftName (name : String) (entries : List (String × FileTree)) : String :=
  freshName ("." ++ name ++ ".") entries

/-- A name of the length of the new file's: eight characters tell it from
    others. -/
def draftForm (name : String) : String := "." ++ name ++ ".________"

/-- Makes the directories above the end of a way. -/
def makeParents (way : List String) (t : FileTree) : Except FileTree FileTree :=
  (makeDirs [] way.dropLast t).map Prod.fst

/-- Makes the directories above the end of a way, and gives the place at which a new
    file may be begun.  It may not if its name is too long. -/
def beginFile (way : List String) (t : FileTree) : Except FileTree (FileTree × List String) := do
  let (made, parent) ← makeDirs [] way.dropLast t
  if Path.isLongName (draftForm (way.getLastD "")) then throw made
  return (made, parent)

/-- Writes a file as a whole: the directories above it are made, then a new file
    is written beside it, and this takes its place.  If it cannot, it is taken
    away again. -/
def replaceFile (content : Octets) (way : List String) (t : FileTree) :
    Except FileTree FileTree := do
  let (made, parent) ← beginFile way t
  let entries := ((at? parent made).map FileTree.entries).getD []
  let draft := parent ++ [draftName (way.getLastD "") entries]
  match putAt? (file content) draft made with
  | none => throw made
  | some drafted => match rename? draft (Path.collapse way) drafted with
    | some written => return written
    | none => throw (remove draft drafted)

/-! ## Absolute paths -/

/-- The way to an absolute path. -/
def place (p : Path) : List String := p.names

/-- Whether the system does not look for a path seen from a directory. -/
def refusesPath (workDir p : Path) (t : FileTree) : Bool :=
  p.isTooLong || t.refuses [] (place (workDir.join p))

/-- The content of the file at a path. -/
def contentAt? (p : Path) (t : FileTree) : Option Octets := (reach? (place p) t).bind content?

/-- The text of the file at a path seen from a directory, if anything stands there. -/
def textAt? (p : Path) (t : FileTree) (workDir : Path := .top) : Except Fault (Option String) :=
  if t.refusesPath workDir p then .error .longPath
  else match reach? (place (workDir.join p)) t with
    | none => .ok none
    | some (dir _) => .error .directory
    | some (file content) => match Utf8.decode? content with
      | some s => .ok (some s)
      | none => .error .undecodable

/-- Whether there is a file at a path. -/
def isFileAt (p : Path) (t : FileTree) : Bool := (contentAt? p t).isSome

/-- The entries of the directory at a path. -/
def entriesAt? (p : Path) (t : FileTree) : Option (List (String × FileTree)) :=
  match reach? (place p) t with
  | some (dir es) => some es
  | _ => none

/-! ## All files -/

mutual

/-- The files of a tree below a place, with their places. -/
def files (place : List String) : FileTree → List (List String × Octets)
  | file content => [(place, content)]
  | dir entries => filesOfEntries place entries

/-- The files of the entries of a directory at a place. -/
def filesOfEntries (place : List String) :
    List (String × FileTree) → List (List String × Octets)
  | [] => []
  | (n, t) :: rest => files (place ++ [n]) t ++ filesOfEntries place rest

end

/-- The files of a tree that are not in another one, or have another content
    there. -/
def changes (before after : FileTree) : List (List String × Octets) :=
  (files [] after).filter fun (names, content) => (at? names before).bind content? != some content

end FileTree

end DeclGraph
