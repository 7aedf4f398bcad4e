/-
  What steps do to a session, and what is left of it after a run.

  * `Step.Publishes` and `Step.Refused` say when a step publishes a graph and when it fails;
  * `Step.Outcome` lists the ways in which a step can go, and `Step.outcome_run` says that there
    is no other;
  * `Step.Atomic` is what this means for a desk, and `Step.runAll_atomic` what it means for a
    run.
-/
import DeclGraph.Graph.Build
import DeclGraph.Proofs.Snapshot.File
import DeclGraph.Session

namespace DeclGraph

/-! ## Replies -/

/-- What a graph replies to a question. -/
def Graph.reply (g : Graph) (q : Query) : Reply :=
  match q.answer g with
  | .ok a => .answer a
  | .error fault => .failed (.fault fault)

/-- The graph that was taken out as number `i` replies to all questions as `g` does, and nothing
    changes by that. -/
def Desk.Answers (d : Desk) (i : Nat) (g : Graph) : Prop :=
  ∀ q : Query, (Step.ask q (some i)).run d = (d, g.reply q)

theorem Desk.answers_of_taken {d : Desk} {i : Nat} {g : Graph} (h : d.taken[i]? = some g) :
    d.Answers i g := by
  intro q
  have hgraph : d.graph (some i) = .ok g := by rw [Desk.graph, Option.bind_some, h]
  rw [Step.run, hgraph]
  dsimp only
  cases hanswer : q.answer g <;> simp only [Graph.reply, hanswer, Desk.fail]

/-- A failure to load a snapshot: there is none, or it is not well formed; or the host does not
    read the file. -/
inductive Failure.OfLoad (h : Host) (files : FileTree) (path : Path) : Failure → Prop where
  | missing (hread : ∀ fault, ¬ files.Unread h .top path fault) :
    OfLoad h files path (.problem (.snapshotMissing path.toText))
  | invalid (reason : String) (hread : ∀ fault, ¬ files.Unread h .top path fault) :
    OfLoad h files path (.problem (.snapshotInvalid path.toText reason))
  | unread {fault : Fault} (hunread : files.Unread h .top path fault) :
    OfLoad h files path (.fault fault)

theorem ofLoad_of_loadSnapshot {h : Host} {path : Path} {files : FileTree} {failure : Failure}
    (hload : loadSnapshot h path files = .error failure) : failure.OfLoad h files path := by
  cases failure with
  | problem p =>
    have hread (fault : Fault) : ¬ files.Unread h .top path fault := fun hunread => by
      rw [loadSnapshot_eq_fault_iff.2 hunread] at hload
      cases hload
    rcases loadSnapshot_eq_problem hload with rfl | ⟨reason, rfl⟩
    · exact .missing hread
    · exact .invalid reason hread
  | fault fault => exact .unread (loadSnapshot_eq_fault_iff.1 hload)

theorem Failure.OfLoad.eq_fault_iff {h : Host} {path : Path} {files : FileTree}
    {failure : Failure} {fault : Fault} (hload : failure.OfLoad h files path) :
    failure = .fault fault ↔ files.Unread h .top path fault := by
  cases hload with
  | missing hread => exact iff_of_false nofun (hread fault)
  | invalid reason hread => exact iff_of_false nofun (hread fault)
  | unread hunread =>
    constructor
    · rintro ⟨⟩
      exact hunread
    · intro hunread'
      rw [← loadSnapshot_eq_fault_iff] at hunread hunread'
      exact Except.error.inj (hunread.symm.trans hunread')

namespace Step

variable {d after : Desk} {step : Step} {steps : List Step} {reply : Reply} {g g' : Graph}

/-! ## What a step can do -/

/-- A step publishes a graph: one that is given, that of a document, or that of the snapshot in a
    file. -/
inductive Publishes (d : Desk) : Step → Graph → Prop where
  | graph (g : Graph) : Publishes d (.publish g) g
  | document {document : Json} {g : Graph} (h : Graph.ofDocument document = .ok g) :
    Publishes d (.publishDocument document) g
  | snapshot {path : Path} {g : Graph} (h : d.files.HoldsSnapshot d.host .top path g) :
    Publishes d (.load path) g

theorem Publishes.unique (h : step.Publishes d g) (h' : step.Publishes d g') : g = g' := by
  cases h with
  | graph => cases h'; rfl
  | document h => cases h' with | document h' => exact Except.ok.inj (h.symm.trans h')
  | snapshot h =>
    cases h' with
    | snapshot h' =>
      rw [← loadSnapshot_eq_ok_iff] at h h'
      exact Except.ok.inj (h.symm.trans h')

/-- A step cannot be done: the document is not that of a graph, there is no snapshot at the path,
    nothing is published, no file can be written at the path, the graph has no text, or there is no
    answer. -/
def Refused (d : Desk) : Step → Prop
  | publish _ | clear => False
  | publishDocument document => ∀ g, Graph.ofDocument document ≠ .ok g
  | load path => ∀ g, ¬ d.files.HoldsSnapshot d.host .top path g
  | save path => ∀ g, d.session.graph = some g →
    ¬ (d.files.Accepts .top path ∧ ∃ text, g.toText d.host = .ok text)
  | take => d.session.graph = none
  | ask query taken => ∀ g a, d.graph taken = .ok g → query.answer g ≠ .ok a

theorem Publishes.not_refused (h : step.Publishes d g) : ¬ step.Refused d := by
  cases h with
  | graph => exact id
  | document h => exact fun hno => hno g h
  | snapshot h => exact fun hno => hno g h

/-- A step makes no directory before it fails. -/
def Keeps (d : Desk) (step : Step) : Prop :=
  ∀ path g, step = .save path → d.session.graph = some g →
    d.files.Keeps .top path (g.toText d.host)

/-- How a step can go: with the desk after it and its reply. -/
inductive Outcome (d : Desk) : Step → Desk × Reply → Prop where
  | published {step : Step} {g : Graph} (h : step.Publishes d g) :
    Outcome d step ({ d with session := ⟨some g⟩ }, .loaded true)
  | cleared : Outcome d .clear ({ d with session := ⟨none⟩ }, .loaded false)
  | saved {path : Path} {g : Graph} {files : FileTree} (hg : d.session.graph = some g)
      (hfiles : trySaveSnapshot d.host g path d.files = .ok files) :
    Outcome d (.save path) ({ d with files }, .saved path)
  | taken {g : Graph} (hg : d.session.graph = some g) :
    Outcome d .take ({ d with taken := d.taken ++ [g] }, .loaded true)
  | answered {query : Query} {taken : Option Nat} {g : Graph} {a : Answer}
      (hg : d.graph taken = .ok g) (ha : query.answer g = .ok a) :
    Outcome d (.ask query taken) (d, .answer a)
  | refused {step : Step} {failure : Failure} {left : FileTree} (h : step.Refused d)
      (hload : ∀ path, step = .load path → failure.OfLoad d.host d.files path)
      (hgrown : d.files.Grown left) (hsame : step.Keeps d → left = d.files) :
    Outcome d step ({ d with files := left }, .failed failure)

theorem Outcome.fail {failure : Failure} (h : step.Refused d)
    (hload : ∀ path, step = .load path → failure.OfLoad d.host d.files path) :
    Outcome d step (d.fail failure) :=
  .refused h hload (.refl _) fun _ => rfl

theorem outcome_save (d : Desk) (path : Path) : Outcome d (.save path) ((save path).run d) := by
  cases hg : d.session.graph with
  | none =>
    have hrun : (save path).run d = d.fail (.problem .notLoaded) := by
      rw [run, Session.trySave, Session.current, hg]
      rfl
    rw [hrun]
    refine .fail (fun g hg' => ?_) nofun
    rw [hg] at hg'
    cases hg'
  | some g =>
    have hsave : d.session.trySave d.host path d.files = trySaveSnapshot d.host g path d.files := by
      rw [Session.trySave, Session.current, hg]
      rfl
    rw [run, hsave]
    cases hfiles : trySaveSnapshot d.host g path d.files with
    | ok files => exact .saved hg hfiles
    | error unsaved =>
      obtain ⟨hgrown, hsame⟩ := grown_of_trySaveSnapshot_error hfiles
      refine .refused (fun g' hg' haccepts => ?_) nofun hgrown fun hkeeps =>
        hsame (hkeeps path g rfl hg)
      obtain rfl := Option.some.inj (hg.symm.trans hg')
      obtain ⟨files, hsaved⟩ := exists_trySaveSnapshot_iff.2 haccepts
      rw [hfiles] at hsaved
      cases hsaved

/-- **A step goes in one of these ways.** -/
theorem outcome_run (d : Desk) (step : Step) : Outcome d step (step.run d) := by
  cases step with
  | publish g => exact .published (.graph g)
  | publishDocument document =>
    rw [run]
    cases hread : Graph.ofDocument document with
    | ok g => exact .published (.document hread)
    | error flaw =>
      refine .fail (fun g hg => ?_) nofun
      rw [hread] at hg
      cases hg
  | clear => exact .cleared
  | load path =>
    rw [run, Session.load]
    cases hload : loadSnapshot d.host path d.files with
    | ok g => exact .published (.snapshot (loadSnapshot_eq_ok_iff.1 hload))
    | error failure =>
      refine .fail (fun g hg => ?_) fun path' heq => ?_
      · rw [loadSnapshot_eq_ok_iff.2 hg] at hload
        cases hload
      · obtain rfl := Step.load.inj heq
        exact ofLoad_of_loadSnapshot hload
  | save path => exact outcome_save d path
  | take =>
    rw [run, Session.current]
    cases hg : d.session.graph with
    | none => exact .fail hg nofun
    | some g =>
      have hloaded : d.session.isLoaded = true := by rw [Session.isLoaded, hg]; rfl
      dsimp only
      rw [hloaded]
      exact .taken hg
  | ask query taken =>
    rw [run]
    cases hg : d.graph taken with
    | error p =>
      refine .fail (fun g a hg' => ?_) nofun
      rw [hg] at hg'
      cases hg'
    | ok g =>
      dsimp only
      cases ha : query.answer g with
      | ok a => exact .answered hg ha
      | error fault =>
        refine .fail (fun g' a hg' ha' => ?_) nofun
        obtain rfl := Except.ok.inj (hg.symm.trans hg')
        rw [ha] at ha'
        cases ha'

/-! ## One step -/

/-- A step leaves the published graph as it is. -/
def Quiet (d : Desk) (step : Step) : Prop := step ≠ .clear ∧ ∀ g, ¬ step.Publishes d g

/-- A step is done as a whole or not at all. -/
structure Atomic (d : Desk) (step : Step) (after : Desk) (reply : Reply) : Prop where
  fails_iff : (∃ failure, reply = .failed failure) ↔ step.Refused d
  /-- A failure changes no file and adds none.  It leaves the desk as it was, unless directories
      were made for a file that could not be written. -/
  failed : ∀ failure, reply = .failed failure → after.session = d.session ∧
    after.taken = d.taken ∧ d.files.Grown after.files ∧ (step.Keeps d → after = d)
  load : ∀ path failure, step = .load path → reply = .failed failure →
    failure.OfLoad d.host d.files path
  /-- A load breaks off with a fault exactly if the host does not read the file. -/
  load_fault : ∀ path fault, step = .load path →
    (reply = .failed (.fault fault) ↔ d.files.Unread d.host .top path fault)
  /-- The published graph is in the file that was saved, and no other file has changed. -/
  saved : ∀ path, step = .save path → ¬ step.Refused d → reply = .saved path ∧
    after.session = d.session ∧ ∃ g text, d.session.graph = some g ∧
      g.toText d.host = .ok text ∧
      after.files.contentAt? (Path.top.join path) = some (Utf8.encode text) ∧
      ∀ place c, place ≠ Path.collapse path.names →
        (FileTree.at? place after.files = some (.file c) ↔
          FileTree.at? place d.files = some (.file c))
  files : (∀ path, step ≠ .save path) → after.files = d.files
  taken : step ≠ .take → after.taken = d.taken
  host : after.host = d.host

namespace Outcome

variable (h : Outcome d step (after, reply))

include h

theorem fails_iff : (∃ failure, reply = .failed failure) ↔ step.Refused d := by
  cases h with
  | published h => exact iff_of_false nofun h.not_refused
  | cleared => exact iff_of_false nofun id
  | saved hg hfiles =>
    exact iff_of_false nofun fun hno => hno _ hg (exists_trySaveSnapshot_iff.1 ⟨_, hfiles⟩)
  | taken hg =>
    refine iff_of_false nofun fun hnone => ?_
    rw [Refused, hg] at hnone
    cases hnone
  | answered hg ha => exact iff_of_false nofun fun hno => hno _ _ hg ha
  | refused h => exact iff_of_true ⟨_, rfl⟩ h

theorem load_fault {path : Path} {fault : Fault} (hstep : step = .load path) :
    reply = .failed (.fault fault) ↔ d.files.Unread d.host .top path fault := by
  cases h with
  | refused _ hload => rw [Reply.failed.injEq, (hload path hstep).eq_fault_iff]
  | published h =>
    cases h with
    | snapshot hg =>
      obtain rfl := Step.load.inj hstep
      refine iff_of_false nofun fun hunread => ?_
      rw [← loadSnapshot_eq_ok_iff] at hg
      rw [← loadSnapshot_eq_fault_iff, hg] at hunread
      cases hunread
    | _ => cases hstep
  | _ => cases hstep

theorem atomic : step.Atomic d after reply where
  fails_iff := h.fails_iff
  failed := by
    intro failure hfailure
    cases h with
    | refused _ _ hgrown hsame => exact ⟨rfl, rfl, hgrown, fun hkeeps => by rw [hsame hkeeps]⟩
    | _ => cases hfailure
  load := by
    intro path failure hstep hfailure
    cases h with
    | refused _ hload =>
      obtain rfl := Reply.failed.inj hfailure
      exact hload path hstep
    | _ => cases hfailure
  load_fault := fun _ _ hstep => h.load_fault hstep
  saved := by
    intro path hstep hdone
    cases h with
    | saved hg hfiles =>
      obtain rfl := Step.save.inj hstep
      obtain ⟨-, text, htext, hfiles⟩ := trySaveSnapshot_eq_ok_iff.1 hfiles
      obtain ⟨hfile, hothers⟩ := FileTree.of_replaceFile_ok hfiles
      refine ⟨rfl, rfl, _, text, hg, htext, ?_, ?_⟩
      · rw [FileTree.contentAt?, hfile]
        rfl
      · rwa [FileTree.place, Path.names_top_join] at hothers
    | refused h => exact absurd h hdone
    | published h => cases h <;> cases hstep
    | _ => cases hstep
  files := by
    intro hsave
    cases h with
    | saved => exact absurd rfl (hsave _)
    | refused _ _ _ hsame => exact hsame fun path _ hstep => absurd hstep (hsave path)
    | _ => rfl
  taken := by
    intro htake
    cases h with
    | taken => exact absurd rfl htake
    | _ => rfl
  host := by cases h <;> rfl

/-- What is published after a step is what it publishes, or what was published if it is quiet. -/
theorem graph_eq_some_iff : after.session.graph = some g ↔
    step.Publishes d g ∨ d.session.graph = some g ∧ step.Quiet d := by
  -- most steps leave the session as it is
  have hquiet : step ≠ .clear → (∀ g, ¬ step.Publishes d g) → after.session = d.session →
      (after.session.graph = some g ↔
        step.Publishes d g ∨ d.session.graph = some g ∧ step.Quiet d) := by
    intro hclear hno hsession
    rw [hsession, or_iff_right (hno g)]
    exact (and_iff_left ⟨hclear, hno⟩).symm
  cases h with
  | published h =>
    constructor
    · intro heq
      obtain rfl := Option.some.inj heq
      exact Or.inl h
    · rintro (h' | ⟨-, -, hno⟩)
      · rw [h.unique h']
      · exact absurd h (hno _)
  | cleared =>
    refine iff_of_false nofun ?_
    rintro (h | ⟨-, hclear, -⟩)
    · cases h
    · exact hclear rfl
  | saved => exact hquiet nofun nofun rfl
  | taken => exact hquiet nofun nofun rfl
  | answered => exact hquiet nofun nofun rfl
  | refused h =>
    refine hquiet ?_ (fun g hg => hg.not_refused h) rfl
    rintro rfl
    exact h

theorem prefix_taken : d.taken <+: after.taken := by
  cases h with
  | taken => exact List.prefix_append _ _
  | _ => exact List.prefix_rfl

end Outcome

theorem atomic_run (d : Desk) (step : Step) : step.Atomic d (step.run d).1 (step.run d).2 :=
  (outcome_run d step).atomic

/-- What a failure can leave: a directory that was made for a path with double dots. -/
example : (((save ⟨"/", ["new", "..", "old"]⟩).run
    { session := ⟨some (build [] .null .null).1⟩, files := .dir [("old", .empty)] }).1.files.entries.map
      Prod.fst) = ["old", "new"] := by decide +kernel

/-- **A load of lists in one another** breaks off exactly if there are more than the host reads. -/
theorem reply_load_nested {path : Path} {n : Nat} {lay : Json.Layout} {fault : Fault}
    (ht : d.files.HoldsText .top path ((Json.nested n).render lay)) :
    ((load path).run d).2 = .failed (.fault fault) ↔ fault = .tooDeep ∧ d.host.readDepth ≤ n := by
  rw [(atomic_run d (load path)).load_fault path fault rfl, ht.unread_iff (Json.plain_nested n),
    Json.height_nested, Nat.lt_succ_iff]

/-! ## Runs -/

/-- All steps of a run leave the published graph as it is. -/
def QuietRun (d : Desk) : List Step → Prop
  | [] => True
  | step :: steps => step.Quiet d ∧ QuietRun (step.run d).1 steps

theorem runAll_cons (d : Desk) (step : Step) (steps : List Step) : runAll d (step :: steps) =
    ((runAll (step.run d).1 steps).1, (step.run d).2 :: (runAll (step.run d).1 steps).2) := rfl

theorem runAll_append (d : Desk) (done rest : List Step) : runAll d (done ++ rest) =
    ((runAll (runAll d done).1 rest).1, (runAll d done).2 ++ (runAll (runAll d done).1 rest).2) := by
  induction done generalizing d with
  | nil => rfl
  | cons step done ih =>
    rw [List.cons_append, runAll_cons, runAll_cons, ih]
    rfl

theorem length_runAll (d : Desk) (steps : List Step) : (runAll d steps).2.length = steps.length := by
  induction steps generalizing d with
  | nil => rfl
  | cons step steps ih =>
    rw [runAll_cons, List.length_cons, List.length_cons, ih]

theorem atomic_runAll (d : Desk) (done : List Step) (step : Step) (rest : List Step) :
    ∃ reply, (runAll d (done ++ step :: rest)).2[done.length]? = some reply ∧
      step.Atomic (runAll d done).1 (runAll d (done ++ [step])).1 reply := by
  refine ⟨(step.run (runAll d done).1).2, ?_, ?_⟩
  · rw [runAll_append, List.getElem?_append_right (by rw [length_runAll]), length_runAll,
      Nat.sub_self]
    rfl
  · rw [runAll_append]
    exact atomic_run _ step

/-- **What is published after a run** was published by a step after which all steps were quiet, or
    from the beginning on. -/
theorem graph_runAll_iff : (runAll d steps).1.session.graph = some g ↔
    (d.session.graph = some g ∧ QuietRun d steps) ∨
    ∃ done step rest, steps = done ++ step :: rest ∧ step.Publishes (runAll d done).1 g ∧
      QuietRun (runAll d (done ++ [step])).1 rest := by
  induction steps generalizing d with
  | nil => simp [runAll, QuietRun]
  | cons step steps ih =>
    -- the step that published is the first one or a later one
    have hfirst : (∃ done s rest, step :: steps = done ++ s :: rest ∧
        s.Publishes (runAll d done).1 g ∧ QuietRun (runAll d (done ++ [s])).1 rest) ↔
        (step.Publishes d g ∧ QuietRun (step.run d).1 steps) ∨
        ∃ done s rest, steps = done ++ s :: rest ∧
          s.Publishes (runAll (step.run d).1 done).1 g ∧
          QuietRun (runAll (step.run d).1 (done ++ [s])).1 rest := by
      constructor
      · rintro ⟨done, s, rest, heq, hs, hrest⟩
        cases done with
        | nil =>
          obtain ⟨rfl, rfl⟩ := List.cons.inj heq
          exact Or.inl ⟨hs, hrest⟩
        | cons first done =>
          obtain ⟨rfl, rfl⟩ := List.cons.inj heq
          exact Or.inr ⟨done, s, rest, rfl, hs, hrest⟩
      · rintro (⟨hs, hrest⟩ | ⟨done, s, rest, rfl, hs, hrest⟩)
        · exact ⟨[], step, steps, rfl, hs, hrest⟩
        · exact ⟨step :: done, s, rest, rfl, hs, hrest⟩
    have hstep : (step.run d).1.session.graph = some g ↔
        step.Publishes d g ∨ d.session.graph = some g ∧ step.Quiet d :=
      (outcome_run d step).graph_eq_some_iff
    rw [hfirst, runAll_cons, ih, hstep, QuietRun, or_and_right, and_assoc, or_assoc, or_left_comm]

theorem taken_runAll (d : Desk) (steps : List Step) : d.taken <+: (runAll d steps).1.taken := by
  induction steps generalizing d with
  | nil => exact List.prefix_rfl
  | cons step steps ih => exact (outcome_run d step).prefix_taken.trans (ih _)

theorem answers_runAll {i : Nat} (h : d.taken[i]? = some g) : (runAll d steps).1.Answers i g := by
  obtain ⟨new, hnew⟩ := taken_runAll d steps
  obtain ⟨hi, -⟩ := List.getElem?_eq_some_iff.1 h
  refine Desk.answers_of_taken ?_
  rw [← hnew, List.getElem?_append_left hi, h]

/-- **A run of steps.**  Each of its steps is done as a whole or not at all.  The published graph
    is the last one that was published and not taken back, and each graph that was taken out answers
    as it did then. -/
theorem runAll_atomic (d : Desk) (steps : List Step) :
    (∀ done step rest, steps = done ++ step :: rest →
      ∃ reply, (runAll d steps).2[done.length]? = some reply ∧
        step.Atomic (runAll d done).1 (runAll d (done ++ [step])).1 reply) ∧
    (∀ g, (runAll d steps).1.session.graph = some g ↔
      (d.session.graph = some g ∧ QuietRun d steps) ∨
      ∃ done step rest, steps = done ++ step :: rest ∧ step.Publishes (runAll d done).1 g ∧
        QuietRun (runAll d (done ++ [step])).1 rest) ∧
    (∀ i g, d.taken[i]? = some g → (runAll d steps).1.Answers i g) ∧
    ∀ done rest g, steps = done ++ take :: rest → (runAll d done).1.session.graph = some g →
      (runAll d steps).1.Answers (runAll d done).1.taken.length g := by
  refine ⟨?_, fun g => graph_runAll_iff, fun i g => answers_runAll, ?_⟩
  · rintro done step rest rfl
    exact atomic_runAll d done step rest
  · rintro done rest g rfl hg
    have htake : (take.run (runAll d done).1).1.taken = (runAll d done).1.taken ++ [g] := by
      rw [run, Session.current, hg]
    rw [runAll_append, runAll]
    refine answers_runAll ?_
    rw [htake, List.getElem?_concat_length]

end Step

end DeclGraph
