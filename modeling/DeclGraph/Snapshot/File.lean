/-
  DeclGraph — snapshot files.

  * `Graph.toText` is the text of a snapshot file, in ASCII, one item per line;
  * `Graph.ofOctets` reads the content of a snapshot file;
  * `loadSnapshot` and `saveSnapshot` do both in a file system; `trySaveSnapshot`
    also gives the files that are left when it fails.

  Both fail with a problem where they are meant to, and with a fault where the
  host refuses something that they do not expect it to.
-/
import DeclGraph.FileTree
import DeclGraph.Json.Parser
import DeclGraph.Json.Printer
import DeclGraph.Problem
import DeclGraph.Snapshot.Document

namespace DeclGraph

namespace Graph

/-- The text of a snapshot file. -/
def toText (h : Host) (g : Graph) : Except Fault String := g.toDocument.write h.writeDepth .indented

/-- What it means for a snapshot that its text is not read. -/
def unread : Json.Unread → SnapshotFlaw ⊕ Fault
  | .malformed => .inl .notJson
  | .longInteger digits => .inl (.longInteger digits)
  | .tooDeep => .inr .tooDeep

/-- Reads the text of a snapshot file. -/
def ofText (h : Host) (s : String) : Except (SnapshotFlaw ⊕ Fault) Graph := do
  let document ← (Json.read h.readDepth s).mapError unread
  (ofDocument document).mapError .inl

/-- Reads the content of a snapshot file. -/
def ofOctets (h : Host) (content : Octets) : Except (SnapshotFlaw ⊕ Fault) Graph :=
  match Utf8.decode? content with
  | some s => ofText h s
  | none => .error (.inl .notText)

end Graph

/-! ## Loading -/

/-- The failure to load a snapshot file with a flaw or a fault. -/
def unloaded (path : Path) : SnapshotFlaw ⊕ Fault → Failure
  | .inl flaw => .problem (.snapshotInvalid path.toText flaw.message)
  | .inr fault => .fault fault

/-- The graph in the snapshot file at a path seen from a directory. -/
def loadSnapshot (h : Host) (path : Path) (files : FileTree) (workDir : Path := .top) :
    Except Failure Graph :=
  if files.refusesPath workDir path then .error (.fault .longPath)
  else match files.contentAt? (workDir.join path) with
    | none => .error (.problem (.snapshotMissing path.toText))
    | some content => (Graph.ofOctets h content).mapError (unloaded path)

/-! ## Saving -/

/-- What the system says when a file cannot be written. -/
def systemReason : String := "OS error"

/-- Why a snapshot was not saved, and the files that are left. -/
structure Unsaved where
  failure : Failure
  files : FileTree

/-- A snapshot was not saved because the system does not write the file. -/
def unwritable (path : Path) (left : FileTree) : Unsaved where
  failure := .problem (.snapshotUnwritable path.toText systemReason)
  files := left

/-- The path of the new file through which a snapshot file seen from a directory is
    written, as far as its length goes. -/
def draftPath (workDir path : Path) : Path :=
  (workDir.resolve path.parent).join ⟨"", [FileTree.draftForm path.name]⟩

/-- Goes on unless a test says that the snapshot is not saved. -/
def stopIf (test : Bool) (unsaved : Unsaved) : Except Unsaved Unit :=
  if test then .error unsaved else .ok ()

/-- Writes a snapshot file at a path seen from a directory: the directories above it
    are made, and a new file is begun before the text of the graph is known. -/
def trySaveSnapshot (h : Host) (g : Graph) (path : Path) (files : FileTree)
    (workDir : Path := .top) : Except Unsaved FileTree := do
  let way := FileTree.place (workDir.join path)
  stopIf path.parent.hasNull { failure := .fault .nullInPath, files }
  stopIf path.parent.isTooLong (unwritable path files)
  let made ← (files.makeParents way).mapError (unwritable path)
  stopIf path.hasNull { failure := .fault .nullInPath, files := made }
  let _ ← (files.beginFile way).mapError (unwritable path)
  stopIf (draftPath workDir path).isTooLong (unwritable path made)
  let text ← (g.toText h).mapError fun fault => { failure := .fault fault, files := made }
  stopIf path.isTooLong (unwritable path made)
  (files.replaceFile (Utf8.encode text) way).mapError (unwritable path)

/-- Writes a snapshot file at a path seen from a directory; a failure is only
    reported. -/
def saveSnapshot (h : Host) (g : Graph) (path : Path) (files : FileTree)
    (workDir : Path := .top) : Except Failure FileTree :=
  (trySaveSnapshot h g path files workDir).mapError Unsaved.failure

end DeclGraph
