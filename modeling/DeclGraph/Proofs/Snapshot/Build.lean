/-
  Reading back the documents of built graphs.

  An empty text is a type like any other while a graph is in memory, but the
  document of a member leaves it out.  A graph is read back exactly if no
  property and no method has such a type.
-/
import DeclGraph.Proofs.Graph.Build

namespace DeclGraph

/-! ## What is read back as it was -/

theorem Symbol.Declared.rereadable {unit : String} {kind : SymbolKind} {s : Symbol}
    (h : s.Declared unit kind) : s.Rereadable := by
  obtain ⟨raw, hne, hraw⟩ := h.rawKind_spec
  refine Or.inr ?_
  rw [hraw, Json.truthy, bne_iff_ne]
  exact hne

theorem Member.Declared.settled_eq_self_iff {m : Member} (h : m.Declared) :
    m.settled = m ↔ m.typeName ≠ .str "" := by
  obtain ⟨name, typeName, access⟩ := m
  obtain ⟨t?, rfl : typeName = .ofText? t?⟩ := h.typeName_spec
  cases t? with
  | none => simp [settled, Json.ofText?, Json.truthy]
  | some t => by_cases ht : t = "" <;> simp [settled, Json.ofText?, Json.truthy, ht]

theorem MemberSet.Declared.settled_eq_self_iff {set : MemberSet} (h : set.Declared) :
    set.settled = set ↔ ∀ m ∈ set.properties ++ set.methods, m.typeName ≠ .str "" := by
  have hinit : set.initializers.map Member.untyped = set.initializers :=
    map_eq_self_iff.2 fun m hm => by rw [Member.untyped, ← (h.initializers m hm).2]
  obtain ⟨properties, methods, initializers⟩ := set
  simp only [settled, MemberSet.mk.injEq, hinit, and_true, map_eq_self_iff, List.mem_append]
  constructor
  · rintro ⟨hp, hm⟩ m (hmem | hmem)
    · exact (h.properties m hmem).settled_eq_self_iff.1 (hp m hmem)
    · exact (h.methods m hmem).settled_eq_self_iff.1 (hm m hmem)
  · intro hall
    exact ⟨fun m hmem => (h.properties m hmem).settled_eq_self_iff.2 (hall m (Or.inl hmem)),
      fun m hmem => (h.methods m hmem).settled_eq_self_iff.2 (hall m (Or.inr hmem))⟩

theorem UnitData.Declared.settled_eq_self_iff {unit : String} {data : UnitData}
    (h : data.Declared unit) :
    data.settled = data ↔ ∀ name set, (name, set) ∈ data.members.entries →
      ∀ m ∈ set.properties ++ set.methods, m.typeName ≠ .str "" := by
  obtain ⟨dialect, symbols, members⟩ := data
  rw [settled, UnitData.mk.injEq, eq_self, eq_self, true_and, true_and, Table.map_eq_self_iff]
  refine forall₂_congr fun name set => forall_congr' fun hset => ?_
  exact (h.members name set hset).settled_eq_self_iff

namespace Graph

variable {g : Graph}

/-- **A built graph is settled** exactly if no member has an empty text as its type. -/
theorem Built.settled_eq_self_iff (hg : g.Built) :
    g.settled = g ↔ ∀ unit data, (unit, data) ∈ g.files.entries →
      ∀ name set, (name, set) ∈ data.members.entries →
        ∀ m ∈ set.properties ++ set.methods, m.typeName ≠ .str "" := by
  have hfiles : g.settled = g ↔ g.files.map (fun _ => UnitData.settled) = g.files := by
    constructor
    · exact congrArg Graph.files
    · intro h
      rw [settled, h]
  rw [hfiles, Table.map_eq_self_iff]
  refine forall₂_congr fun unit data => forall_congr' fun hdata => ?_
  exact (hg.declared unit data hdata).settled_eq_self_iff

theorem Built.relative (hg : g.Built) (hids : ∀ head, rootHead g.repoPath = some head →
    ∀ unit ∈ g.files.keys, Text.startsWith unit head = false) : g.Relative := by
  intro head hhead
  refine ⟨hids head hhead, fun s hs => ?_⟩
  obtain ⟨unit, data, kind, hdata, hs⟩ := hg.mem_symbols hs
  exact ⟨unit, ((hg.declared unit data hdata).symbols kind s hs).file_eq,
    hids head hhead unit (List.mem_map_of_mem hdata)⟩

theorem Built.ofDocument_toDocument (hg : g.Built) (hids : ∀ head, rootHead g.repoPath = some head →
    ∀ unit ∈ g.files.keys, Text.startsWith unit head = false) :
    ofDocument g.toDocument = .ok g.settled := by
  refine Graph.ofDocument_toDocument (fun s hs => ?_) (hg.relative hids)
  obtain ⟨unit, data, kind, hdata, hs⟩ := hg.mem_symbols hs
  exact ((hg.declared unit data hdata).symbols kind s hs).rereadable

end Graph

/-! ## Built graphs -/

/-- No id of a unit begins with the root of the code base and a slash. -/
def OutsideRoot (repoPath : Json) (units : List RawUnit) : Prop :=
  ∀ head, rootHead repoPath = some head → ∀ u ∈ units, Text.startsWith u.id head = false

theorem OutsideRoot.keys {repoPath generatedAt : Json} {units : List RawUnit}
    (h : OutsideRoot repoPath units) (head : String)
    (hhead : rootHead (build units repoPath generatedAt).1.repoPath = some head) :
    ∀ unit ∈ (build units repoPath generatedAt).1.files.keys,
      Text.startsWith unit head = false := by
  intro unit hunit
  obtain ⟨⟨unit, data⟩, hdata, rfl⟩ := List.mem_map.1 hunit
  obtain ⟨u, hu, rfl, -⟩ := mem_files_build hdata
  exact h head hhead u hu

/-- **The document of a built graph is read back** as the graph without the types
    that are empty texts, and so as the graph itself exactly if there are none. -/
theorem ofDocument_toDocument_build {units : List RawUnit} {repoPath generatedAt : Json}
    (hids : OutsideRoot repoPath units) {g : Graph}
    (hg : (build units repoPath generatedAt).1 = g) :
    Graph.ofDocument g.toDocument = .ok g.settled ∧
      (Graph.ofDocument g.toDocument = .ok g ↔ ∀ unit data, (unit, data) ∈ g.files.entries →
        ∀ name set, (name, set) ∈ data.members.entries →
          ∀ m ∈ set.properties ++ set.methods, m.typeName ≠ .str "") := by
  have hbuilt : g.Built := hg ▸ built_build
  have hread : Graph.ofDocument g.toDocument = .ok g.settled :=
    hbuilt.ofDocument_toDocument (by rw [← hg]; exact hids.keys)
  refine ⟨hread, ?_⟩
  rw [hread, Except.ok.injEq]
  exact hbuilt.settled_eq_self_iff

/-- A unit that declares a class with one property, of which the type is an empty
    text. -/
def emptyTyped : RawUnit where
  id := "A.swift"
  dialect := .str "swift"
  dump := .obj [("key.kind", .str "source.lang.swift.decl.class"), ("key.name", .str "A"),
    ("key.substructure", .arr [.obj [("key.kind", .str "source.lang.swift.decl.var.instance"),
      ("key.name", .str "x"), ("key.typename", .str "")]])]

theorem outsideRoot_emptyTyped : OutsideRoot (.str "/src") [emptyTyped] := by
  intro head hhead u hu
  obtain rfl := List.mem_singleton.1 hu
  obtain rfl : "/src/" = head := Option.some.inj hhead
  decide

/-- The graph of that unit is read back as another one. -/
theorem ofDocument_emptyTyped_ne : OutsideRoot (.str "/src") [emptyTyped] ∧
    ∃ g, (build [emptyTyped] (.str "/src") .null).1 = g ∧
      Graph.ofDocument g.toDocument = .ok g.settled ∧ Graph.ofDocument g.toDocument ≠ .ok g := by
  obtain ⟨hread, -⟩ := ofDocument_toDocument_build outsideRoot_emptyTyped
    (rfl : (build [emptyTyped] (.str "/src") .null).1 = _)
  refine ⟨outsideRoot_emptyTyped, _, rfl, hread, fun h => ?_⟩
  have hsettled := Except.ok.inj (hread.symm.trans h)
  have htypes := congrArg (fun g : Graph => g.files.values.map fun data =>
    data.members.values.map fun set => set.properties.map Member.typeName) hsettled
  exact absurd htypes (by decide +kernel)

end DeclGraph
