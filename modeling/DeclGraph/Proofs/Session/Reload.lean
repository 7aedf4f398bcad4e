/-
  Saving and loading the graph of a session.

  * `saveSnapshot_congr`: what is saved depends on the document only;
  * `reload_build`: a session answers after saving and loading a built graph what
    it answered before; it is saved unless a number in it is too long.
-/
import DeclGraph.Proofs.Query.Settled
import DeclGraph.Proofs.Snapshot.Build
import DeclGraph.Proofs.Snapshot.File
import DeclGraph.Proofs.Snapshot.Plain
import DeclGraph.Session

namespace DeclGraph

/-! ## Built graphs -/

variable {h : Host} {g g' : Graph} {path workDir : Path} {files files' : FileTree}

theorem saveSnapshot_congr (hg : g'.toDocument = g.toDocument) :
    saveSnapshot h g' path files workDir = saveSnapshot h g path files workDir := by
  rw [saveSnapshot, trySaveSnapshot, Graph.toText, hg]
  rfl

/-- What a host writes of a built graph: its text, or nothing because of a long integer. -/
theorem Graph.Built.toText_cases (hg : g.Built) (hroot : g.repoPath.Plain Json.Short 6)
    (htime : g.generatedAt.Plain Json.Short 6) (h : Host) :
    ((∃ text, g.toText h = .ok text) ↔ g.Extents Json.Short) ∧
      (¬ g.Extents Json.Short → g.toText h = .error .longInteger) := by
  have hdepth : 7 ≤ h.writeDepth := Nat.le_trans (by decide) h.ample.2.1
  exact ⟨hg.exists_write_iff hroot htime hdepth, hg.write_eq_error hroot htime hdepth⟩

/-- A saved graph that was built is read as what its document says. -/
theorem Graph.Built.loadSnapshot_of_save {h' : Host} (hg : g.Built)
    (hroot : g.repoPath.Plain Json.Short 6) (htime : g.generatedAt.Plain Json.Short 6)
    (hread : Graph.ofDocument g.toDocument = .ok g')
    (hsave : saveSnapshot h' g path files workDir = .ok files') :
    loadSnapshot h path files' workDir = .ok g' := by
  have hplain : g.toDocument.Plain (fun _ => True) 7 :=
    hg.plain (hroot.mono (fun _ _ => trivial) le_rfl) (htime.mono (fun _ _ => trivial) le_rfl)
      trivial fun _ _ _ _ _ _ _ _ => trivial
  rw [loadSnapshot_of_saveSnapshot hplain (Nat.le_trans (by decide) h.ample.1) hsave, hread]
  rfl

/-! ## Sessions -/

/-- **Saving and loading a built graph changes no answer of a session.** The graph
    that is loaded has the same document, so that it is saved as the same text.  Where a file can be
    written the graph is saved exactly if the numbers in it are short; else the save breaks off
    with a fault, and not with a problem. -/
theorem reload_build {units : List RawUnit} {root? : Option String} {now : String}
    (hids : OutsideRoot (.ofText? root?) units)
    (hg : (build units (.ofText? root?) (.str now)).1 = g) (h : Host) (session : Session)
    (hpath : files.Accepts workDir path) :
    ((∃ files', (session.publish g).save h path files workDir = .ok files') ↔
      g.Extents Json.Short) ∧
    (¬ g.Extents Json.Short →
      (session.publish g).save h path files workDir = .error (.fault .longInteger)) ∧
    ∀ files', (session.publish g).save h path files workDir = .ok files' →
      ∃ session' g', (session.publish g).load h path files' workDir = .ok session' ∧
        session'.current = .ok g' ∧ g'.toDocument = g.toDocument ∧
        (∀ path files workDir,
          session'.save h path files workDir = (session.publish g).save h path files workDir) ∧
        ∀ q : Query, (q.answer g').map Answer.toJson = (q.answer g).map Answer.toJson := by
  have hbuilt : g.Built := hg ▸ built_build
  have hroot : g.repoPath.Plain Json.Short 6 := by
    rw [← hg]
    exact Json.plain_ofText? root?
  have htime : g.generatedAt.Plain Json.Short 6 := by
    rw [← hg]
    exact .str now
  have hread : Graph.ofDocument g.toDocument = .ok g.settled :=
    hbuilt.ofDocument_toDocument (by rw [← hg]; exact hids.keys)
  obtain ⟨htext, hlong⟩ := hbuilt.toText_cases hroot htime h
  refine ⟨exists_saveSnapshot_iff.trans ((and_iff_right hpath).trans htext),
    fun hno => saveSnapshot_of_fault hpath (hlong hno), fun files' hsave => ?_⟩
  refine ⟨session.publish g.settled, g.settled, ?_, rfl, g.toDocument_settled,
    fun path files workDir => saveSnapshot_congr g.toDocument_settled, g.toJson_answer_settled⟩
  rw [Session.load, hbuilt.loadSnapshot_of_save hroot htime hread hsave]
  rfl

/-- Any text can be written to a file in an empty directory. -/
theorem replaceFile_empty (content : Octets) : FileTree.empty.replaceFile content
    (FileTree.place (Path.top.join (Path.ofText "app.json"))) =
      .ok (.dir [("app.json", .file content)]) := rfl

theorem accepts_empty : FileTree.empty.Accepts .top (Path.ofText "app.json") := by
  obtain ⟨hnames, hwritable⟩ := FileTree.exists_replaceFile_iff.1 ⟨_, replaceFile_empty []⟩
  exact ⟨⟨rfl, rfl, rfl, hnames⟩, hwritable⟩

/-- The greatest number that is not too long. -/
def greatestShort : Int := Int.ofNat (tenTo Text.maxIntDigits - 1)

/-- A unit that declares a class from the least number that is not too long to the greatest. -/
def farApart : RawUnit where
  id := "A.m"
  dialect := .str "objc"
  dump := .obj [("kind", .str "TranslationUnitDecl"), ("inner", .arr [.obj [
    ("kind", .str "ObjCInterfaceDecl"), ("name", .str "A"),
    ("range", .obj [("begin", .obj [("offset", .int (-greatestShort))]),
      ("end", .obj [("offset", .int greatestShort)])])]])]

/-- A graph that is not read back as it was is saved and loaded; one with a class whose length is
    a long integer is not saved. -/
theorem reload_emptyTyped :
    (OutsideRoot (.ofText? (some "/src")) [emptyTyped] ∧
      FileTree.empty.Accepts .top (Path.ofText "app.json") ∧
      ∃ g files' session' g', (build [emptyTyped] (.ofText? (some "/src")) (.str "")).1 = g ∧
        (Session.publish {} g).save {} (Path.ofText "app.json") .empty = .ok files' ∧
        (Session.publish {} g).load {} (Path.ofText "app.json") files' = .ok session' ∧
        session'.current = .ok g' ∧
        ∀ q : Query, (q.answer g').map Answer.toJson = (q.answer g).map Answer.toJson) ∧
    OutsideRoot (.ofText? none) [farApart] ∧
      (Session.publish {} (build [farApart] (.ofText? none) (.str "")).1).save {}
        (Path.ofText "app.json") .empty = .error (.fault .longInteger) := by
  have hids : OutsideRoot (.ofText? (some "/src")) [emptyTyped] := outsideRoot_emptyTyped
  have hids' : OutsideRoot (.ofText? none) [farApart] := nofun
  obtain ⟨hsaved, -, hreload⟩ := reload_build hids
    (rfl : (build [emptyTyped] _ (.str "")).1 = _) {} {} accepts_empty
  obtain ⟨-, hfault, -⟩ := reload_build hids'
    (rfl : (build [farApart] _ (.str "")).1 = _) {} {} accepts_empty
  refine ⟨⟨hids, accepts_empty, ?_⟩, hids', hfault fun hshort => ?_⟩
  · have hplaceless : ∀ e ∈ (build [emptyTyped] (.ofText? (some "/src")) (.str "")).1.files.entries,
        ∀ kind ∈ SymbolKind.all, ∀ s ∈ e.2.symbols.bucket kind,
          s.offset = .null ∧ s.length = .null := by
      decide +kernel
    obtain ⟨files', hsave⟩ := hsaved.2 (Graph.extents_of_placeless hplaceless)
    obtain ⟨session', g', hload, hcurrent, -, -, hanswers⟩ := hreload files' hsave
    exact ⟨_, files', session', g', rfl, hsave, hload, hcurrent, hanswers⟩
  · have hplace : ∃ e ∈ (build [farApart] (.ofText? none) (.str "")).1.files.entries,
        ∃ kind ∈ SymbolKind.all, ∃ s ∈ e.2.symbols.bucket kind,
          s.length = .int (2 * greatestShort) := by
      decide +kernel
    obtain ⟨⟨unit, data⟩, hdata, kind, -, s, hs, hlength⟩ := hplace
    have hlong : Json.isLong (2 * greatestShort) = false :=
      hshort unit data hdata kind s hs _ (Or.inr hlength)
    exact absurd hlong (by decide +kernel)

end DeclGraph
