/-
  Which documents can be read and then asked without a fault.

  Reading checks the kinds of a document and the shape of its lists and objects, and keeps
  any other value.  So a document that is read may hold values that a question fails at.

  * `SafeToAsk`: if a document is read, its graph answers every proper question;
  * `safeToAsk_build`: the documents of built graphs are safe to ask;
  * `safeToAsk_namedDocument_iff`: a document of one class is read, whatever its name is, and
    is safe to ask if the name is a text;
  * `safeToAsk_iff`: what a document has to hold in order to be safe to ask.
-/
import DeclGraph.Proofs.Query.Askable
import DeclGraph.Proofs.Query.Settled
import DeclGraph.Proofs.Snapshot.Build

namespace DeclGraph

/-- Whether the graph of a document answers every proper question, if the document is
    read at all. -/
def SafeToAsk (document : Json) : Prop := ∀ g, Graph.ofDocument document = .ok g → g.Answers

/-! ## Documents of built graphs -/

/-- Only member types differ after a document was written and read, and no question needs
    them to be texts. -/
theorem Graph.answers_settled (g : Graph) : g.settled.Answers ↔ g.Answers := by
  refine forall₂_congr fun q _ => ?_
  have h := g.toJson_answer_settled q
  rw [← exists_map_eq_ok (f := Answer.toJson), h, exists_map_eq_ok]

/-- The documents that are written of built graphs are safe to ask. -/
theorem safeToAsk_build {units : List RawUnit} {repoPath : Json} (h : OutsideRoot repoPath units)
    (generatedAt : Json) : SafeToAsk (build units repoPath generatedAt).1.toDocument := by
  intro g hg
  have hbuilt : (build units repoPath generatedAt).1.Built := built_build
  rw [hbuilt.ofDocument_toDocument h.keys] at hg
  obtain rfl := Except.ok.inj hg
  exact (Graph.answers_settled _).2 hbuilt.askable.answers

/-! ## Documents of one class -/

/-- A document of one class with a given name. -/
def namedDocument (name : Json) : Json :=
  .obj [("files", .obj [("A.swift", .obj [("symbols", .obj [("classes",
    .arr [.obj [("name", name)]])])])]), ("dependencyGraph", .obj []), ("indexes", .obj [])]

/-- The symbol of that class. -/
def namedClass (name : Json) : Symbol := { name, kind := .class_, file := .str "" }

/-- The document is read, whatever the name is. -/
theorem ofDocument_namedDocument (name : Json) : ∃ g,
    Graph.ofDocument (namedDocument name) = .ok g ∧ g.typeMap = .empty ∧ g.indexes = {} ∧
      ∃ data, g.files.entries = [("A.swift", data)] ∧
        ∀ kind, data.symbols.bucket kind = if kind = .class_ then [namedClass name] else [] := by
  refine ⟨_, rfl, rfl, rfl, _, rfl, fun kind => ?_⟩
  cases kind <;> rfl

theorem askable_of_one_class {g : Graph} {data : UnitData} {name : Json}
    (htypes : g.typeMap = .empty) (hindexes : g.indexes = {})
    (hfiles : g.files.entries = [("A.swift", data)])
    (hsymbols : ∀ kind, data.symbols.bucket kind =
      if kind = .class_ then [namedClass name] else []) : g.Askable ↔ ∃ text, name = .str text := by
  have hrow (n : String) : (g.indexes.byName.get? n).getD [] = [] := by rw [hindexes]; rfl
  have hresolve (n : String) : g.resolve n = .ok none := by
    rw [Graph.resolve, Graph.resolveIndexed, hrow, Graph.resolveType, htypes]
    rfl
  constructor
  · intro hg
    have hmem : ("A.swift", data) ∈ g.files.entries := by rw [hfiles]; exact List.mem_cons_self
    refine hg.names _ data hmem .class_ (by decide) (namedClass name) ?_
    rw [hsymbols, if_pos rfl]
    exact List.mem_cons_self
  · rintro ⟨text, rfl⟩
    refine ⟨fun unit data' hdata kind _ s hs => ⟨text, ?_⟩, fun n l hl => ?_,
      fun n found hf => ?_, fun n found hf => ?_, fun n found hf => ?_⟩
    · rw [hfiles, List.mem_singleton, Prod.mk.injEq] at hdata
      rw [hdata.2, hsymbols] at hs
      split at hs
      · rw [List.mem_singleton.1 hs, namedClass]
      · cases hs
    · rw [hrow] at hl
      cases hl
    all_goals exact absurd ((hresolve n).symm.trans hf) (by simp)

/-- **A name in a document is not checked** when the document is read, and only a text can
    be asked for. -/
theorem safeToAsk_namedDocument_iff (name : Json) :
    (∃ g, Graph.ofDocument (namedDocument name) = .ok g) ∧
      (SafeToAsk (namedDocument name) ↔ ∃ text, name = .str text) := by
  obtain ⟨g, hg, htypes, hindexes, data, hfiles, hsymbols⟩ := ofDocument_namedDocument name
  refine ⟨⟨g, hg⟩, ?_⟩
  rw [← askable_of_one_class htypes hindexes hfiles hsymbols, ← Graph.answers_iff, SafeToAsk, hg]
  exact ⟨fun h => h g rfl, fun h g' hg' => Except.ok.inj hg' ▸ h⟩

/-! ## All documents -/

/-- **A document is safe to ask exactly if its graph is askable**, that is, if the names and
    places that questions look at are of the right types; where a question fails, it met a value
    of a wrong type.  Reading does not check these types, so that there is an unsafe document for
    every value that is no text.  The documents of built graphs are safe. -/
theorem safeToAsk_iff (document : Json) :
    (SafeToAsk document ↔ ∀ g, Graph.ofDocument document = .ok g → g.Askable) ∧
    (∀ g, Graph.ofDocument document = .ok g → ∀ q : Query, q.Proper →
      (∃ a, q.answer g = .ok a) ∨ q.answer g = .error .wrongType) ∧
    (∀ name, (∃ g, Graph.ofDocument (namedDocument name) = .ok g) ∧
      (SafeToAsk (namedDocument name) ↔ ∃ text, name = .str text)) ∧
    ∀ units repoPath generatedAt, OutsideRoot repoPath units →
      SafeToAsk (build units repoPath generatedAt).1.toDocument := by
  refine ⟨forall₂_congr fun g _ => Graph.answers_iff, fun g _ q hq => ?_,
    safeToAsk_namedDocument_iff, fun _ _ generatedAt h => safeToAsk_build h generatedAt⟩
  cases hanswer : q.answer g with
  | ok a => exact Or.inl ⟨a, rfl⟩
  | error fault => exact Or.inr (congrArg _ (Graph.wrongType_of_answer hq fault hanswer))

/-- A class that has a number as its name is read, and cannot be searched for. -/
theorem not_safeToAsk_numberName : (∃ g, Graph.ofDocument (namedDocument (.int 5)) = .ok g) ∧
    ¬ SafeToAsk (namedDocument (.int 5)) := by
  obtain ⟨-, -, hnamed, -⟩ := safeToAsk_iff (namedDocument (.int 5))
  obtain ⟨hread, hsafe⟩ := hnamed (.int 5)
  refine ⟨hread, fun h => ?_⟩
  obtain ⟨text, htext⟩ := hsafe.1 h
  cases htext

end DeclGraph
