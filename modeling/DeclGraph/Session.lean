/-
  DeclGraph — sessions.

  A session holds the one graph that is published.  A graph taken out of it for
  questions stays as it is when another one is published.

  * `Session.publish`, `clear`, `load` and `save` are the operations;
  * `Step` lists what can be done with a session, its files and the graphs taken
    out of it, and `Step.run` does it; a step that answers with a failure leaves
    everything as it was, but for directories that were made on the way to a file
    that could not be written.
-/
import DeclGraph.Query.Basic
import DeclGraph.Snapshot.File

namespace DeclGraph

/-- A session: the published graph, if there is one. -/
structure Session where
  graph : Option Graph := none
deriving DecidableEq, Inhabited

namespace Session

/-- Whether a graph is published. -/
def isLoaded (s : Session) : Bool := s.graph.isSome

/-- The published graph. -/
def current (s : Session) : Except Problem Graph :=
  match s.graph with
  | some g => .ok g
  | none => .error .notLoaded

/-- Publishes a graph. -/
def publish (_ : Session) (g : Graph) : Session := ⟨some g⟩

/-- Takes the published graph back. -/
def clear (_ : Session) : Session := ⟨none⟩

/-- Publishes the graph of a snapshot file seen from a directory. -/
def load (h : Host) (s : Session) (path : Path) (files : FileTree) (workDir : Path := .top) :
    Except Failure Session :=
  (loadSnapshot h path files workDir).map s.publish

/-- Writes the published graph to a snapshot file seen from a directory. -/
def trySave (h : Host) (s : Session) (path : Path) (files : FileTree) (workDir : Path := .top) :
    Except Unsaved FileTree := do
  let g ← s.current.mapError fun problem => { failure := .problem problem, files }
  trySaveSnapshot h g path files workDir

/-- Writes the published graph to a snapshot file seen from a directory; a
    failure is only reported. -/
def save (h : Host) (s : Session) (path : Path) (files : FileTree) (workDir : Path := .top) :
    Except Failure FileTree :=
  (s.trySave h path files workDir).mapError Unsaved.failure

end Session

/-! ## Runs -/

/-- What can be done with a session. -/
inductive Step where
  | publish (graph : Graph)
  /-- publish the graph of a document -/
  | publishDocument (document : Json)
  | clear
  | load (path : Path)
  | save (path : Path)
  /-- take the published graph out for questions -/
  | take
  /-- ask the graph that was taken out as number `taken`, or the published one -/
  | ask (query : Query) (taken : Option Nat)
deriving DecidableEq, Inhabited

/-- What a step answers. -/
inductive Reply where
  /-- whether a graph is published now -/
  | loaded (isLoaded : Bool)
  | saved (path : Path)
  | answer (answer : Answer)
  | failed (failure : Failure)
deriving DecidableEq

/-- A session with its files and the graphs taken out of it. -/
structure Desk where
  host : Host := {}
  session : Session := {}
  files : FileTree := .empty
  taken : List Graph := []
deriving Inhabited

namespace Desk

/-- Changes the session. -/
def withSession (d : Desk) (s : Session) : Desk × Reply := ({ d with session := s }, .loaded s.isLoaded)

/-- Fails and leaves the desk as it is. -/
def fail (d : Desk) (f : Failure) : Desk × Reply := (d, .failed f)

/-- The graph that a question is for. -/
def graph (d : Desk) (taken : Option Nat) : Except Problem Graph :=
  match taken.bind fun i => d.taken[i]? with
  | some g => .ok g
  | none => d.session.current

end Desk

/-- Does a step. -/
def Step.run (d : Desk) : Step → Desk × Reply
  | publish g => d.withSession (d.session.publish g)
  | publishDocument document =>
    match Graph.ofDocument document with
    | .ok g => d.withSession (d.session.publish g)
    | .error flaw => d.fail (.fault (.badDocument flaw.message))
  | clear => d.withSession d.session.clear
  | load path =>
    match d.session.load d.host path d.files with
    | .ok s => d.withSession s
    | .error failure => d.fail failure
  | save path =>
    match d.session.trySave d.host path d.files with
    | .ok files => ({ d with files }, .saved path)
    | .error unsaved => { d with files := unsaved.files }.fail unsaved.failure
  | take =>
    match d.session.current with
    | .ok g => ({ d with taken := d.taken ++ [g] }, .loaded d.session.isLoaded)
    | .error p => d.fail (.problem p)
  | ask query taken =>
    match d.graph taken with
    | .error p => d.fail (.problem p)
    | .ok g => match query.answer g with
      | .ok a => (d, .answer a)
      | .error f => d.fail (.fault f)

/-- Does steps one after the other. -/
def Step.runAll (d : Desk) : List Step → Desk × List Reply
  | [] => (d, [])
  | step :: steps =>
    let (d', reply) := step.run d
    let (d'', replies) := runAll d' steps
    (d'', reply :: replies)

end DeclGraph
