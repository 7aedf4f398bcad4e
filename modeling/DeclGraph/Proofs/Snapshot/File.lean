/-
  Saving a snapshot file, and loading what was saved.

  * `FileTree.Accepts`: where the system writes a snapshot file;
  * `exists_trySaveSnapshot_iff`: a snapshot is saved exactly there, if its text can be written;
  * `grown_of_trySaveSnapshot_error`: what is left if it is not saved;
  * `loadSnapshot_eq_ok_iff` and `loadSnapshot_eq_fault_iff`: when a snapshot is loaded, and when
    a fault keeps it from being loaded;
  * `loadSnapshot_of_saveSnapshot`: what is read in a file that was saved.
-/
import DeclGraph.Proofs.FileTree.Replace
import DeclGraph.Proofs.Json.Depth
import DeclGraph.Proofs.Path
import DeclGraph.Proofs.Snapshot.Document
import DeclGraph.Proofs.Text.Utf8
import DeclGraph.Snapshot.File

namespace DeclGraph

/-- The system takes a path seen from a directory, its names, and those of the new file beside
    it. -/
structure Path.Sound (workDir path : Path) : Prop where
  null : path.hasNull = false
  length : path.isTooLong = false
  draft : (draftPath workDir path).isTooLong = false
  names : FileTree.ShortNames (FileTree.place (workDir.join path))

/-- A snapshot file can be written at a path seen from a directory. -/
structure FileTree.Accepts (files : FileTree) (workDir path : Path) : Prop where
  sound : Path.Sound workDir path
  writable : files.Writable (FileTree.place (workDir.join path))

/-- What was made on the way to a snapshot file is gone if it cannot be written: there was nothing
    to make, or the path is sound and straight and the text is known. -/
def FileTree.Keeps (files : FileTree) (workDir path : Path) (text : Except Fault String) : Prop :=
  files.HasDirs (FileTree.place (workDir.join path)) ∨
    (Path.Sound workDir path ∧ ".." ∉ FileTree.place (workDir.join path) ∧ ∃ s, text = .ok s)

theorem stopIf_eq_ok {test : Bool} {unsaved : Unsaved} {u : Unit} :
    stopIf test unsaved = .ok u ↔ test = false := by
  cases test <;> simp [stopIf]

theorem stopIf_eq_error {test : Bool} {unsaved unsaved' : Unsaved} :
    stopIf test unsaved = .error unsaved' ↔ test = true ∧ unsaved = unsaved' := by
  cases test <;> simp [stopIf]

variable {h : Host} {g : Graph} {path workDir : Path} {files files' : FileTree} {unsaved : Unsaved}

/-! ## Success -/

/-- A snapshot is saved if its text can be written as a whole to a sound path. -/
theorem trySaveSnapshot_eq_ok_iff : trySaveSnapshot h g path files workDir = .ok files' ↔
    Path.Sound workDir path ∧ ∃ text, g.toText h = .ok text ∧
      files.replaceFile (Utf8.encode text) (FileTree.place (workDir.join path)) = .ok files' := by
  simp only [trySaveSnapshot, bind_eq_ok, stopIf_eq_ok, mapError_eq_ok]
  constructor
  · rintro ⟨-, -, -, -, made, -, -, hnull, -, -, -, hdraft, text, htext, -, hlength, hfiles⟩
    exact ⟨⟨hnull, hlength, hdraft, (FileTree.exists_replaceFile_iff.1 ⟨_, hfiles⟩).1⟩, text, htext,
      hfiles⟩
  · rintro ⟨hsound, text, htext, hfiles⟩
    -- a file that was written was begun, in directories that were made
    obtain ⟨begun, hbegun, -⟩ := bind_eq_ok.1 hfiles
    obtain ⟨made, hmade, -⟩ := bind_eq_ok.1 hbegun
    exact ⟨(), Path.hasNull_parent hsound.null, (), Path.isTooLong_parent hsound.length, made.1,
      map_eq_ok.2 ⟨made, hmade, rfl⟩, (), hsound.null, begun, hbegun, (), hsound.draft, text, htext,
      (), hsound.length, hfiles⟩

/-- **A snapshot is saved exactly where the system writes a file**, if its text can be written. -/
theorem exists_trySaveSnapshot_iff :
    (∃ files', trySaveSnapshot h g path files workDir = .ok files') ↔
      files.Accepts workDir path ∧ ∃ text, g.toText h = .ok text := by
  simp only [trySaveSnapshot_eq_ok_iff]
  constructor
  · rintro ⟨files', hsound, text, htext, hfiles⟩
    exact ⟨⟨hsound, (FileTree.exists_replaceFile_iff.1 ⟨_, hfiles⟩).2⟩, text, htext⟩
  · rintro ⟨⟨hsound, hwritable⟩, text, htext⟩
    obtain ⟨files', hfiles⟩ : ∃ files', files.replaceFile (Utf8.encode text)
        (FileTree.place (workDir.join path)) = .ok files' :=
      FileTree.exists_replaceFile_iff.2 ⟨hsound.names, hwritable⟩
    exact ⟨files', hsound, text, htext, hfiles⟩

theorem saveSnapshot_eq_ok_iff : saveSnapshot h g path files workDir = .ok files' ↔
    Path.Sound workDir path ∧ ∃ text, g.toText h = .ok text ∧
      files.replaceFile (Utf8.encode text) (FileTree.place (workDir.join path)) = .ok files' := by
  rw [saveSnapshot, mapError_eq_ok, trySaveSnapshot_eq_ok_iff]

theorem exists_saveSnapshot_iff : (∃ files', saveSnapshot h g path files workDir = .ok files') ↔
    files.Accepts workDir path ∧ ∃ text, g.toText h = .ok text := by
  simp only [saveSnapshot, mapError_eq_ok, exists_trySaveSnapshot_iff]

/-! ## Failure -/

/-- Where a file could be written, the fault in the text is the failure. -/
theorem saveSnapshot_of_fault {fault : Fault} (hpath : files.Accepts workDir path)
    (htext : g.toText h = .error fault) :
    saveSnapshot h g path files workDir = .error (.fault fault) := by
  obtain ⟨hsound, hwritable⟩ := hpath
  obtain ⟨files', hfiles⟩ : ∃ files', files.replaceFile []
      (FileTree.place (workDir.join path)) = .ok files' :=
    FileTree.exists_replaceFile_iff.2 ⟨hsound.names, hwritable⟩
  obtain ⟨begun, hbegun, -⟩ := bind_eq_ok.1 hfiles
  obtain ⟨made, hmade, -⟩ := bind_eq_ok.1 hbegun
  have hparents : files.makeParents (FileTree.place (workDir.join path)) = .ok made.1 :=
    map_eq_ok.2 ⟨made, hmade, rfl⟩
  simp only [saveSnapshot, trySaveSnapshot, stopIf, Path.hasNull_parent hsound.null,
    Path.isTooLong_parent hsound.length, hparents, hsound.null, hbegun, hsound.draft, htext,
    Except.mapError, Bool.false_eq_true, if_false, ok_bind]
  rfl

/-- **What is left if a snapshot is not saved**: the same files, and nothing that was made on the
    way if there was nothing to make, or if only the place of the file is at fault. -/
theorem grown_of_trySaveSnapshot_error
    (hsave : trySaveSnapshot h g path files workDir = .error unsaved) :
    files.Grown unsaved.files ∧
      (files.Keeps workDir path (g.toText h) → unsaved.files = files) := by
  have htidy (hkeeps : files.Keeps workDir path (g.toText h)) :
      files.Tidy (FileTree.place (workDir.join path)) := by
    rcases hkeeps with hdirs | ⟨hsound, hdots, -⟩
    · exact Or.inr hdirs
    · exact Or.inl ⟨hdots, hsound.names⟩
  simp only [trySaveSnapshot, bind_eq_error, stopIf_eq_error, stopIf_eq_ok, mapError_eq_ok,
    mapError_eq_error] at hsave
  rcases hsave with ⟨-, rfl⟩ | ⟨-, -, ⟨-, rfl⟩ | ⟨-, -, hsave⟩⟩
  · exact ⟨.refl _, fun _ => rfl⟩
  · exact ⟨.refl _, fun _ => rfl⟩
  rcases hsave with ⟨left, hleft, rfl⟩ | ⟨made, hmade, hsave⟩
  · obtain ⟨hgrown, hsame, -⟩ := FileTree.grown_of_makeParents_error hleft
    exact ⟨hgrown, fun hkeeps => hsame (htidy hkeeps)⟩
  obtain ⟨hgrown, hsame⟩ := FileTree.grown_of_makeParents hmade
  rcases hsave with ⟨hnull, rfl⟩ | ⟨-, -, ⟨left, hleft, rfl⟩ | ⟨begun, hbegun, hsave⟩⟩
  · refine ⟨hgrown, ?_⟩
    rintro (hdirs | ⟨hsound, -⟩)
    · exact hsame hdirs
    · rw [hsound.null] at hnull
      cases hnull
  · obtain ⟨hgrown, hsame, -⟩ := FileTree.grown_of_beginFile_error hleft
    exact ⟨hgrown, fun hkeeps => hsame (htidy hkeeps)⟩
  rcases hsave with ⟨hdraft, rfl⟩ | ⟨-, -, ⟨fault, hfault, rfl⟩ | ⟨text, -, hsave⟩⟩
  · refine ⟨hgrown, ?_⟩
    rintro (hdirs | ⟨hsound, -⟩)
    · exact hsame hdirs
    · rw [hsound.draft] at hdraft
      cases hdraft
  · refine ⟨hgrown, ?_⟩
    rintro (hdirs | ⟨-, -, text, htext⟩)
    · exact hsame hdirs
    · rw [hfault] at htext
      cases htext
  rcases hsave with ⟨hlength, rfl⟩ | ⟨-, -, left, hleft, rfl⟩
  · refine ⟨hgrown, ?_⟩
    rintro (hdirs | ⟨hsound, -⟩)
    · exact hsame hdirs
    · rw [hsound.length] at hlength
      cases hlength
  · obtain ⟨hgrown, hsame⟩ := FileTree.grown_of_replaceFile_error hleft
    exact ⟨hgrown, fun hkeeps => hsame (htidy hkeeps)⟩

/-! ## Snapshot files -/

namespace FileTree

/-- The file at a path seen from a directory holds a text. -/
structure HoldsText (files : FileTree) (workDir path : Path) (text : String) : Prop where
  found : files.refusesPath workDir path = false
  content : ∃ content, files.contentAt? (workDir.join path) = some content ∧
    Utf8.decode? content = some text

/-- The file at a path seen from a directory is the text of a document that a host reads. -/
def HoldsDocument (h : Host) (files : FileTree) (workDir path : Path) (document : Json) : Prop :=
  ∃ text, files.HoldsText workDir path text ∧ Json.read h.readDepth text = .ok document

/-- The file at a path seen from a directory is the text of a document that is read as a graph. -/
def HoldsSnapshot (h : Host) (files : FileTree) (workDir path : Path) (g : Graph) : Prop :=
  ∃ document, files.HoldsDocument h workDir path document ∧ Graph.ofDocument document = .ok g

/-- A host does not read the file at a path seen from a directory: the path is too long, or the
    text is too deep. -/
inductive Unread (h : Host) (files : FileTree) (workDir path : Path) : Fault → Prop where
  | longPath (hlong : files.refusesPath workDir path = true) : Unread h files workDir path .longPath
  | tooDeep {text : String} (htext : files.HoldsText workDir path text)
    (hdeep : Json.read h.readDepth text = .error .tooDeep) : Unread h files workDir path .tooDeep

theorem HoldsText.unique {text text' : String} (ht : files.HoldsText workDir path text)
    (ht' : files.HoldsText workDir path text') : text = text' := by
  obtain ⟨content, hcontent, htext⟩ := ht.content
  obtain ⟨content', hcontent', htext'⟩ := ht'.content
  obtain rfl := Option.some.inj (hcontent.symm.trans hcontent')
  exact Option.some.inj (htext.symm.trans htext')

theorem HoldsDocument.unique {document document' : Json}
    (hd : files.HoldsDocument h workDir path document)
    (hd' : files.HoldsDocument h workDir path document') : document = document' := by
  obtain ⟨text, htext, hdocument⟩ := hd
  obtain ⟨text', htext', hdocument'⟩ := hd'
  obtain rfl := htext.unique htext'
  exact Except.ok.inj (hdocument.symm.trans hdocument')

/-- The root in the document of a snapshot is that of its graph. -/
theorem HoldsSnapshot.exists_members (hg : files.HoldsSnapshot h workDir path g) : ∃ ms,
    files.HoldsDocument h workDir path (.obj ms) ∧ Graph.ofDocument (.obj ms) = .ok g ∧
      g.repoPath = Json.memberOrNull "repoPath" ms := by
  obtain ⟨document, hdocument, hg⟩ := hg
  obtain ⟨ms, rfl, hroot⟩ := Graph.repoPath_of_ofDocument hg
  exact ⟨ms, hdocument, hg, hroot⟩

end FileTree

theorem loadSnapshot_of_holdsText {text : String} (ht : files.HoldsText workDir path text) :
    loadSnapshot h path files workDir = (Graph.ofText h text).mapError (unloaded path) := by
  obtain ⟨content, hcontent, htext⟩ := ht.content
  rw [loadSnapshot, ht.found, if_neg (by decide), hcontent]
  dsimp only
  rw [Graph.ofOctets, htext]

/-- **How a snapshot file is loaded**: there is none, it is no text, or its text is read. -/
theorem loadSnapshot_cases (h : Host) (path : Path) (files : FileTree) (workDir : Path) :
    (files.refusesPath workDir path = true ∧
      loadSnapshot h path files workDir = .error (.fault .longPath)) ∨
    (files.refusesPath workDir path = false ∧ (∀ text, ¬ files.HoldsText workDir path text) ∧
      (loadSnapshot h path files workDir = .error (.problem (.snapshotMissing path.toText)) ∨
        loadSnapshot h path files workDir =
          .error (unloaded path (.inl .notText)))) ∨
    ∃ text, files.HoldsText workDir path text ∧
      loadSnapshot h path files workDir = (Graph.ofText h text).mapError (unloaded path) := by
  cases hfound : files.refusesPath workDir path with
  | true => exact Or.inl ⟨rfl, by rw [loadSnapshot, hfound, if_pos rfl]⟩
  | false =>
    refine Or.inr ?_
    cases hcontent : files.contentAt? (workDir.join path) with
    | none =>
      refine Or.inl ⟨rfl, fun text htext => ?_, Or.inl ?_⟩
      · obtain ⟨content, hcontent', -⟩ := htext.content
        rw [hcontent] at hcontent'
        cases hcontent'
      · rw [loadSnapshot, hfound, if_neg (by decide), hcontent]
    | some content =>
      cases htext : Utf8.decode? content with
      | none =>
        refine Or.inl ⟨rfl, fun text htext' => ?_, Or.inr ?_⟩
        · obtain ⟨content', hcontent', htext'⟩ := htext'.content
          obtain rfl := Option.some.inj (hcontent.symm.trans hcontent')
          rw [htext] at htext'
          cases htext'
        · rw [loadSnapshot, hfound, if_neg (by decide), hcontent]
          dsimp only
          rw [Graph.ofOctets, htext]
          rfl
      | some text =>
        have hholds : files.HoldsText workDir path text := ⟨hfound, content, hcontent, htext⟩
        exact Or.inr ⟨text, hholds, loadSnapshot_of_holdsText hholds⟩

theorem ofText_eq_ok_iff {text : String} : Graph.ofText h text = .ok g ↔
    ∃ document, Json.read h.readDepth text = .ok document ∧ Graph.ofDocument document = .ok g := by
  simp only [Graph.ofText, bind_eq_ok, mapError_eq_ok]

/-- A graph is loaded exactly if the file holds it. -/
theorem loadSnapshot_eq_ok_iff :
    loadSnapshot h path files workDir = .ok g ↔ files.HoldsSnapshot h workDir path g := by
  constructor
  · intro hload
    rcases loadSnapshot_cases h path files workDir with
      ⟨-, hno⟩ | ⟨-, -, hno | hno⟩ | ⟨text, htext, hread⟩
    · rw [hload] at hno
      cases hno
    · rw [hload] at hno
      cases hno
    · rw [hload] at hno
      cases hno
    · rw [hread, mapError_eq_ok, ofText_eq_ok_iff] at hload
      obtain ⟨document, hdocument, hg⟩ := hload
      exact ⟨document, ⟨text, htext, hdocument⟩, hg⟩
  · rintro ⟨document, ⟨text, htext, hdocument⟩, hg⟩
    rw [loadSnapshot_of_holdsText htext, mapError_eq_ok, ofText_eq_ok_iff]
    exact ⟨document, hdocument, hg⟩

theorem ofText_eq_fault_iff {text : String} {fault : Fault} :
    Graph.ofText h text = .error (.inr fault) ↔
      Json.read h.readDepth text = .error .tooDeep ∧ fault = .tooDeep := by
  simp only [Graph.ofText, bind_eq_error, mapError_eq_ok, mapError_eq_error, reduceCtorEq,
    and_false, exists_false, or_false]
  constructor
  · rintro ⟨unread, hread, hfault⟩
    cases unread with
    | malformed => cases hfault
    | longInteger digits => cases hfault
    | tooDeep => exact ⟨hread, (Sum.inr.inj hfault).symm⟩
  · rintro ⟨hread, rfl⟩
    exact ⟨_, hread, rfl⟩

/-- A fault comes up exactly if the host does not read the file. -/
theorem loadSnapshot_eq_fault_iff {fault : Fault} :
    loadSnapshot h path files workDir = .error (.fault fault) ↔
      files.Unread h workDir path fault := by
  constructor
  · intro hload
    rcases loadSnapshot_cases h path files workDir with
      ⟨hlong, hno⟩ | ⟨-, -, hno | hno⟩ | ⟨text, htext, hread⟩
    · rw [hload] at hno
      obtain rfl := Failure.fault.inj (Except.error.inj hno)
      exact .longPath hlong
    · rw [hload] at hno
      cases hno
    · rw [hload] at hno
      cases hno
    · rw [hread, mapError_eq_error] at hload
      obtain ⟨flaw | fault', hflaw, hfault⟩ := hload
      · cases hfault
      · obtain rfl := Failure.fault.inj hfault
        obtain ⟨hdeep, rfl⟩ := ofText_eq_fault_iff.1 hflaw
        exact .tooDeep htext hdeep
  · rintro (hlong | ⟨htext, hdeep⟩)
    · rw [loadSnapshot, hlong, if_pos rfl]
    · rw [loadSnapshot_of_holdsText htext, ofText_eq_fault_iff.2 ⟨hdeep, rfl⟩]
      rfl

/-- The text of a document is not read exactly if lists and objects lie too deep in it. -/
theorem FileTree.HoldsText.unread_iff {document : Json} {lay : Json.Layout} {e : Nat}
    (ht : files.HoldsText workDir path (document.render lay))
    (hplain : document.Plain Json.Short e) {fault : Fault} :
    files.Unread h workDir path fault ↔ fault = .tooDeep ∧ h.readDepth < document.height := by
  have hread := Json.read_render_eq hplain h.readDepth lay
  constructor
  · rintro (hlong | ⟨ht', hdeep⟩)
    · rw [ht.found] at hlong
      cases hlong
    · refine ⟨rfl, Nat.not_le.1 fun hle => ?_⟩
      rw [ht.unique ht', hdeep, if_pos hle] at hread
      cases hread
  · rintro ⟨rfl, hlt⟩
    rw [if_neg (Nat.not_le.2 hlt)] at hread
    exact .tooDeep ht hread

/-- All other failures are problems: there is no file, or it is not that of a snapshot. -/
theorem loadSnapshot_eq_problem {p : Problem}
    (hload : loadSnapshot h path files workDir = .error (.problem p)) :
    p = .snapshotMissing path.toText ∨ ∃ reason, p = .snapshotInvalid path.toText reason := by
  rcases loadSnapshot_cases h path files workDir with
    ⟨-, hno⟩ | ⟨-, -, hno | hno⟩ | ⟨text, -, hread⟩
  · rw [hload] at hno
    cases hno
  · rw [hload] at hno
    exact Or.inl (Failure.problem.inj (Except.error.inj hno))
  · rw [hload] at hno
    exact Or.inr ⟨_, Failure.problem.inj (Except.error.inj hno)⟩
  · rw [hread, mapError_eq_error] at hload
    obtain ⟨flaw | fault, -, hp⟩ := hload
    · exact Or.inr ⟨_, (Failure.problem.inj hp).symm⟩
    · cases hp

/-! ## Reading back -/

/-- **A saved snapshot is in its file**, for any host that reads as deep as it goes. -/
theorem holdsText_of_saveSnapshot (hsave : saveSnapshot h g path files workDir = .ok files') :
    ∃ text, g.toText h = .ok text ∧ files'.HoldsText workDir path text := by
  obtain ⟨hsound, text, htext, hfiles⟩ := saveSnapshot_eq_ok_iff.1 hsave
  have hshort : ∀ n ∈ FileTree.place (workDir.join path), Path.isLongName n = false := by
    intro n hn
    have hne : FileTree.place (workDir.join path) ≠ [] := List.ne_nil_of_mem hn
    rw [← List.dropLast_append_getLast hne, List.mem_append, List.mem_singleton] at hn
    rcases hn with hn | rfl
    · exact hsound.names.1 n hn
    · have hlast := hsound.names.2
      rw [List.getLastD_eq_getLast?, List.getLast?_eq_getLast_of_ne_nil hne] at hlast
      exact Path.isLongName_of_draftForm hlast
  refine ⟨text, htext, ?_, Utf8.encode text, ?_, Utf8.decode?_encode text⟩
  · rw [FileTree.refusesPath, hsound.length, FileTree.refuses_eq_false hshort]
    rfl
  · rw [FileTree.contentAt?, (FileTree.of_replaceFile_ok hfiles).1]
    rfl

theorem loadSnapshot_of_saveSnapshot {h' : Host} {d : Nat} {p : Int → Prop}
    (hplain : g.toDocument.Plain p d) (hd : d ≤ h.readDepth)
    (hsave : saveSnapshot h' g path files workDir = .ok files') :
    loadSnapshot h path files' workDir =
      ((Graph.ofDocument g.toDocument).mapError .inl).mapError (unloaded path) := by
  obtain ⟨text, htext, hholds⟩ := holdsText_of_saveSnapshot hsave
  have hread : Json.read h.readDepth text = .ok g.toDocument :=
    Json.read_of_write (hplain.mono (fun _ => id) hd) htext
  rw [loadSnapshot_of_holdsText hholds, Graph.ofText, hread]
  rfl

end DeclGraph
