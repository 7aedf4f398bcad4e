/-
  Loading a snapshot in the server.

  * `Server.Load` lists the ways in which a load can go, and `Server.load_loadGraph` says
    that there is no other;
  * `call_loadGraph_outcomes`: a result tells what became of the server, and there is one unless
    the host does not read the file, or the root in a snapshot is neither missing nor a text.
-/
import DeclGraph.Proofs.Snapshot.File
import DeclGraph.Proofs.Snapshot.Plain
import DeclGraph.Server.Basic

namespace DeclGraph

/-! ## Roots of code bases -/

/-- A value that counts as present is a text. -/
def Json.TextIfPresent (j : Json) : Prop := j.truthy = true → ∃ text, j = .str text

theorem rootOf_of_textIfPresent {g : Graph} (h : g.repoPath.TextIfPresent) :
    Server.rootOf g = .ok (g.repoPath.nonEmptyText?.map Path.ofText) := by
  unfold Server.rootOf
  split
  · rename_i htruthy
    obtain ⟨text, htext⟩ := h htruthy
    rw [htext] at htruthy ⊢
    have hne : text ≠ "" := by simpa [Json.truthy] using htruthy
    simp [Json.nonEmptyText?, hne]
  · rename_i htruthy
    cases hpath : g.repoPath.nonEmptyText? with
    | none => rfl
    | some text =>
      obtain ⟨htext, hne⟩ := Json.nonEmptyText?_eq_some.1 hpath
      rw [htext] at htruthy
      exact absurd (by simpa [Json.truthy] using hne) htruthy

theorem rootOf_of_not_textIfPresent {g : Graph} (h : ¬ g.repoPath.TextIfPresent) :
    Server.rootOf g = .error .wrongType := by
  unfold Json.TextIfPresent at h
  push Not at h
  obtain ⟨htruthy, hnot⟩ := h
  unfold Server.rootOf
  rw [if_pos htruthy]
  split
  · rename_i text htext
    exact absurd htext (hnot text)
  · rfl

/-! ## Results -/

/-- Whether a result is that of a problem. -/
def Json.isProblem : Json → Bool
  | .obj ms => (Json.member? "error" ms).isSome
  | _ => false

theorem isProblem_toolResult (p : Problem) : p.toolResult.isProblem = true := rfl

theorem isProblem_loadResult (path : Path) (g : Graph) : (loadResult path g).isProblem = false :=
  rfl

/-! ## Outcomes of a load -/

/-- How a load from a path, found in the files of the server, can go: with the server after
    it and its answer. -/
inductive Server.Load (s : Server) (around : Surroundings) (path : Path) :
    Server × Except Fault Json → Prop where
  /-- there is no snapshot -/
  | refused (p : Problem)
      (hnone : ∀ g, ¬ s.files.HoldsSnapshot around.host around.workDir path g)
      (hread : ∀ fault, ¬ s.files.Unread around.host around.workDir path fault) :
    Load s around path (s, .ok p.toolResult)
  /-- the file is not read to its end -/
  | unread (fault : Fault) (hunread : s.files.Unread around.host around.workDir path fault) :
    Load s around path (s, .error fault)
  /-- there is a snapshot, and its root is missing or a text -/
  | loaded (g : Graph) (hsnapshot : s.files.HoldsSnapshot around.host around.workDir path g)
      (hroot : g.repoPath.TextIfPresent) :
    Load s around path ({ s with
      session := ⟨some g⟩
      root := (g.repoPath.nonEmptyText?.map Path.ofText).or s.root }, .ok (loadResult path g))
  /-- there is one with another root; it is published before this comes up -/
  | broken (g : Graph) (hsnapshot : s.files.HoldsSnapshot around.host around.workDir path g)
      (hroot : ¬ g.repoPath.TextIfPresent) :
    Load s around path ({ s with session := ⟨some g⟩ }, .error .wrongType)

theorem Server.load_loadGraph (s : Server) (around : Surroundings) {path found : Path}
    (hfound : path.expand around.host = .ok found) :
    s.Load around found (s.loadGraph around path) := by
  unfold loadGraph
  rw [hfound]
  dsimp only
  cases hload : loadSnapshot around.host found s.files around.workDir with
  | error failure =>
    cases failure with
    | problem p =>
      refine .refused p (fun g hg => ?_) fun fault hfault => ?_
      · rw [loadSnapshot_eq_ok_iff.2 hg] at hload
        cases hload
      · rw [loadSnapshot_eq_fault_iff.2 hfault] at hload
        cases hload
    | fault fault => exact .unread fault (loadSnapshot_eq_fault_iff.1 hload)
  | ok g =>
    have hsnapshot := loadSnapshot_eq_ok_iff.1 hload
    dsimp only
    by_cases hroot : g.repoPath.TextIfPresent
    · have hloaded : s.Load around found _ := .loaded g hsnapshot hroot
      rw [rootOf_of_textIfPresent hroot]
      cases hpath : g.repoPath.nonEmptyText? with
      | none =>
        rw [hpath] at hloaded
        exact hloaded
      | some text =>
        rw [hpath] at hloaded
        exact hloaded
    · rw [rootOf_of_not_textIfPresent hroot]
      exact .broken g hsnapshot hroot

namespace Server.Load

variable {s after : Server} {around : Surroundings} {path : Path} {answer : Except Fault Json}
  {result : Json} (h : s.Load around path (after, answer))

include h

theorem of_isProblem (hresult : answer = .ok result) (hproblem : result.isProblem = true) :
    after = s ∧ (∃ p : Problem, result = p.toolResult) ∧
      ∀ g, ¬ s.files.HoldsSnapshot around.host around.workDir path g := by
  cases h with
  | refused p hnone => exact ⟨rfl, ⟨p, (Except.ok.inj hresult).symm⟩, hnone⟩
  | loaded g =>
    rw [← Except.ok.inj hresult, isProblem_loadResult] at hproblem
    cases hproblem
  | unread fault => cases hresult
  | broken g => cases hresult

theorem of_not_isProblem (hresult : answer = .ok result) (hproblem : result.isProblem = false) :
    ∃ g, s.files.HoldsSnapshot around.host around.workDir path g ∧ result = loadResult path g ∧
      after = { s with
        session := ⟨some g⟩
        root := (g.repoPath.nonEmptyText?.map Path.ofText).or s.root } := by
  cases h with
  | refused p =>
    rw [← Except.ok.inj hresult, isProblem_toolResult] at hproblem
    cases hproblem
  | loaded g hsnapshot => exact ⟨g, hsnapshot, (Except.ok.inj hresult).symm, rfl⟩
  | unread fault => cases hresult
  | broken g => cases hresult

theorem exists_result_iff : (∃ result, answer = .ok result) ↔
    (∀ fault, ¬ s.files.Unread around.host around.workDir path fault) ∧
      ∀ ms g, s.files.HoldsDocument around.host around.workDir path (.obj ms) →
        Graph.ofDocument (.obj ms) = .ok g → (Json.memberOrNull "repoPath" ms).TextIfPresent := by
  cases h with
  | refused p hnone hread =>
    refine iff_of_true ⟨_, rfl⟩ ⟨hread, fun ms g hdocument hg => ?_⟩
    exact absurd ⟨_, hdocument, hg⟩ (hnone g)
  | unread fault hunread => exact iff_of_false nofun fun hall => hall.1 fault hunread
  | loaded g hsnapshot hroot =>
    refine iff_of_true ⟨_, rfl⟩ ⟨fun fault hfault => ?_, fun ms' g' hdocument' _ => ?_⟩
    · rw [← loadSnapshot_eq_ok_iff] at hsnapshot
      rw [← loadSnapshot_eq_fault_iff, hsnapshot] at hfault
      cases hfault
    · obtain ⟨ms, hdocument, -, hpath⟩ := hsnapshot.exists_members
      obtain rfl := Json.obj.inj (hdocument.unique hdocument')
      rwa [← hpath]
  | broken g hsnapshot hroot =>
    refine iff_of_false nofun fun hall => ?_
    obtain ⟨ms, hdocument, hg, hpath⟩ := hsnapshot.exists_members
    rw [hpath] at hroot
    exact absurd (hall.2 ms g hdocument hg) hroot

theorem of_fault {fault : Fault} (hfault : answer = .error fault) :
    (s.files.Unread around.host around.workDir path fault ∧ after = s) ∨
      fault = .wrongType ∧ ∃ g, s.files.HoldsSnapshot around.host around.workDir path g ∧
        after = { s with session := ⟨some g⟩ } := by
  cases h with
  | refused p => cases hfault
  | unread fault hunread =>
    obtain rfl := Except.error.inj hfault
    exact Or.inl ⟨hunread, rfl⟩
  | loaded g => cases hfault
  | broken g hsnapshot => exact Or.inr ⟨(Except.error.inj hfault).symm, g, hsnapshot, rfl⟩

end Server.Load

/-- A document of no units with a given root. -/
def rootedDocument (root : Json) : Json :=
  .obj [("repoPath", root), ("files", .obj []), ("dependencyGraph", .obj []), ("indexes", .obj [])]

/-- The document is read, whatever the root is. -/
theorem ofDocument_rootedDocument (root : Json) : ∃ g,
    Graph.ofDocument (rootedDocument root) = .ok g ∧ g.repoPath = root := by
  have hread : Graph.ofDocument (rootedDocument root) =
      (Graph.rebase (rootHead root) {
        files := .empty, typeMap := .empty, edges := [], indexes := {}
        repoPath := root, generatedAt := .null }).mapError .malformed := rfl
  rw [hread]
  cases rootHead root with
  | none => exact ⟨_, rfl, rfl⟩
  | some head => exact ⟨_, rfl, rfl⟩

/-- **A load changes all or nothing, unless it breaks down.**  It does so at once if the path begins
    with the home directory of a user who has none.  A problem leaves the server as it was; any
    other result comes with the graph that the file holds, published, and with the root of that
    graph if it has one.  There is a result unless the host does not read the file, and then nothing
    has changed, or the document in the file is read and has a root that counts as present and
    is no text.  Then the graph is published without its root, and the call fails; reading keeps
    every root as it is. -/
theorem call_loadGraph_outcomes (s : Server) (around : Surroundings) (path : String) :
    let after := (s.call around (.loadGraph path)).1
    let answer := (s.call around (.loadGraph path)).2
    (∀ fault, (Path.ofText path).expand around.host = .error fault →
      after = s ∧ answer = .error ⟨fault⟩) ∧
    (∀ found, (Path.ofText path).expand around.host = .ok found →
      (∀ result, answer = .ok result → result.isProblem = true →
        after = s ∧ (∃ p : Problem, result = p.toolResult) ∧
          ∀ g, ¬ s.files.HoldsSnapshot around.host around.workDir found g) ∧
      (∀ result, answer = .ok result → result.isProblem = false →
        ∃ g, s.files.HoldsSnapshot around.host around.workDir found g ∧
          result = loadResult found g ∧ after = { s with
            session := ⟨some g⟩
            root := (g.repoPath.nonEmptyText?.map Path.ofText).or s.root }) ∧
      ((∃ result, answer = .ok result) ↔
        (∀ fault, ¬ s.files.Unread around.host around.workDir found fault) ∧
          ∀ ms g, s.files.HoldsDocument around.host around.workDir found (.obj ms) →
            Graph.ofDocument (.obj ms) = .ok g →
              (Json.memberOrNull "repoPath" ms).TextIfPresent) ∧
      ∀ fault, answer = .error ⟨fault⟩ →
        (s.files.Unread around.host around.workDir found fault ∧ after = s) ∨
          fault = .wrongType ∧ ∃ g, s.files.HoldsSnapshot around.host around.workDir found g ∧
            after = { s with session := ⟨some g⟩ }) ∧
    ∀ root, ∃ g, Graph.ofDocument (rootedDocument root) = .ok g ∧ g.repoPath = root := by
  intro after answer
  have hanswer : answer = (s.loadGraph around (Path.ofText path)).2.mapError ToolError.mk := rfl
  refine ⟨fun fault hfault => ?_, fun found hfound => ?_, ofDocument_rootedDocument⟩
  · have hload : s.loadGraph around (Path.ofText path) = (s, .error fault) := by
      rw [Server.loadGraph, hfault]
    exact ⟨congrArg Prod.fst hload, hanswer.trans (by rw [hload]; rfl)⟩
  · have hload : s.Load around found (after, (s.loadGraph around (Path.ofText path)).2) :=
      s.load_loadGraph around hfound
    rw [hanswer]
    simp only [mapError_eq_ok, mapError_eq_error, ToolError.mk.injEq, exists_eq_right]
    exact ⟨fun _ => hload.of_isProblem, fun _ => hload.of_not_isProblem, hload.exists_result_iff,
      fun _ => hload.of_fault⟩

/-- A server with a published graph and a snapshot in which the root is a number. -/
def numberRooted : Server where
  session := ⟨some (build [] .null .null).1⟩
  files := .dir [("s.json", .file (Utf8.encode ((rootedDocument (.int 5)).render .oneLine)))]

/-- Loading it gives no result, and another graph is published then. -/
theorem call_loadGraph_numberRooted :
    (Path.ofText "s.json").expand ({} : Surroundings).host = .ok (Path.ofText "s.json") ∧
    (¬ ∃ result, (numberRooted.call {} (.loadGraph "s.json")).2 = .ok result) ∧
      ∃ g, g.repoPath = .int 5 ∧ (numberRooted.call {} (.loadGraph "s.json")).1 =
        { numberRooted with session := ⟨some g⟩ } := by
  have hexpand : (Path.ofText "s.json").expand ({} : Surroundings).host =
      .ok (Path.ofText "s.json") := rfl
  obtain ⟨-, hload, hread⟩ := call_loadGraph_outcomes numberRooted {} "s.json"
  obtain ⟨-, -, hanswers, hbroken⟩ := hload _ hexpand
  have hplain : (rootedDocument (.int 5)).Plain Json.Short 2 := by
    simp [rootedDocument, Json.plain_obj_iff, Json.Plain.int, Json.short_of_lt]
  have htext : numberRooted.files.HoldsText .top (Path.ofText "s.json")
      ((rootedDocument (.int 5)).render .oneLine) := ⟨rfl, _, rfl, Utf8.decode?_encode _⟩
  have hdocument : numberRooted.files.HoldsDocument {} .top (Path.ofText "s.json")
      (rootedDocument (.int 5)) := ⟨_, htext, Json.read_render (hplain.mono (fun _ => id) (by decide)) _⟩
  obtain ⟨g, hg, -⟩ := hread (.int 5)
  have hnone : ¬ ∃ result, (numberRooted.call {} (.loadGraph "s.json")).2 = .ok result := by
    intro hanswer
    obtain ⟨text, htext⟩ := (hanswers.1 hanswer).2 _ g hdocument hg rfl
    cases htext
  refine ⟨hexpand, hnone, ?_⟩
  cases hanswer : (numberRooted.call {} (.loadGraph "s.json")).2 with
  | ok result => exact absurd ⟨result, hanswer⟩ hnone
  | error e =>
    obtain ⟨fault⟩ := e
    rcases hbroken fault hanswer with ⟨hunread, -⟩ | ⟨-, g', ⟨document, hdocument', hg'⟩, hafter⟩
    · cases hunread with
      | longPath hlong =>
        rw [htext.found] at hlong
        cases hlong
      | tooDeep htext' hdeep =>
        obtain ⟨_, htext'', hread⟩ := hdocument
        obtain rfl := htext'.unique htext''
        rw [hread] at hdeep
        cases hdeep
    · obtain rfl := hdocument.unique hdocument'
      obtain ⟨ms, hms, hroot⟩ := Graph.repoPath_of_ofDocument hg'
      obtain rfl := Json.obj.inj hms
      exact ⟨g', hroot, hafter⟩

end DeclGraph
