/-
  The nodes that types take their members from.

  * `OwnsMembers`: the first node of the name of a type, whether that declares the type or
    not;
  * `mem_memberOwners_iff`: extraction takes the members from these nodes.
-/
import DeclGraph.Proofs.Ast.Readable

namespace DeclGraph.Ast

variable {v : Vocabulary} {unit : String}

/-- Whether a node has a name and a tag. -/
def Tagged (v : Vocabulary) (node : Node) (name : String) : Prop :=
  v.name node = some name ∧ ∃ tag, v.tag node = .ok (some tag) ∧ tag ≠ ""

/-- A type takes its members from the first node of its name, whether that declares the type
    or not. -/
structure OwnsMembers (d : Dialect) (dump : Json) (place : Place) (node : Node) (name : String) :
    Prop where
  stands : StandsAt d dump place node
  tagged : Tagged d.vocabulary node name
  first : ∀ place' node', StandsAt d dump place' node' → Tagged d.vocabulary node' name →
    ¬ place' < place
  isType : ∃ place' node' kind, kind ∈ [SymbolKind.class_, .struct, .protocol, .enum] ∧
    StandsAt d dump place' node' ∧ DeclaresKind d.vocabulary node' name kind

/-! ## Nodes in a row -/

/-- What a node declares, if it can be read. -/
def declarationAt? (v : Vocabulary) (unit : String) (node : Node) : Option Declaration :=
  (declaration v unit node).toOption.join

theorem declarationAt?_of_ok {node : Node} {o : Option Declaration}
    (h : declaration v unit node = .ok o) : declarationAt? v unit node = o := by
  rw [declarationAt?, h]
  cases o <;> rfl

theorem declared_eq {nodes : List Node} {os : List (Option Declaration)}
    (h : List.Forall₂ (fun node o => declaration v unit node = .ok o) nodes os) :
    os.filterMap id = nodes.filterMap (declarationAt? v unit) := by
  induction h with
  | nil => rfl
  | cons ho _ ih => rw [List.filterMap_cons, List.filterMap_cons, ih, declarationAt?_of_ok ho]; rfl

/-- A node that can be read declares something of a name if it has the name and a tag. -/
theorem any_declarationAt?_iff {node : Node} {name : String}
    (h : ∃ o, declaration v unit node = .ok o) :
    (declarationAt? v unit node).any (·.name = name) ↔ Tagged v node name := by
  obtain ⟨o, ho⟩ := h
  rw [declarationAt?_of_ok ho, Option.any_eq_true]
  simp only [decide_eq_true_eq]
  constructor
  · rintro ⟨dec, rfl, rfl⟩
    obtain ⟨-, hname, tag, htag, hne, -⟩ := declaration_eq_some ho
    exact ⟨hname, tag, htag, hne⟩
  · rintro ⟨hname, tag, htag, hne⟩
    rw [declaration_of_tag htag hname hne] at ho
    cases hkind : SymbolKind.classify? tag with
    | none =>
      rw [hkind] at ho
      exact ⟨_, (Except.ok.inj ho).symm, rfl⟩
    | some kind =>
      rw [hkind] at ho
      obtain ⟨s, -, rfl⟩ := map_eq_ok.1 ho
      exact ⟨_, rfl, rfl⟩

theorem node_of_declarationAt? {node : Node} {dec : Declaration}
    (h : declarationAt? v unit node = some dec) : dec.node = node := by
  cases hread : declaration v unit node with
  | error fault => rw [declarationAt?, hread] at h; cases h
  | ok o =>
    rw [declarationAt?_of_ok hread] at h
    exact (declaration_eq_some (h ▸ hread)).1

/-- The first entry that passes a test is the one at the least place. -/
theorem find?_eq_some_iff_of_ascending {ps : List (Place × Node)}
    (h : (ps.map Prod.fst).Pairwise (· < ·)) {test : Place × Node → Bool} {p : Place × Node} :
    ps.find? test = some p ↔ p ∈ ps ∧ test p ∧ ∀ q ∈ ps, test q → ¬ q.1 < p.1 := by
  induction ps with
  | nil => simp
  | cons q ps ih =>
    rw [List.map_cons, List.pairwise_cons] at h
    have hlt (p : Place × Node) (hp : p ∈ ps) : q.1 < p.1 := h.1 p.1 (List.mem_map_of_mem hp)
    rw [List.find?_cons]
    cases hq : test q with
    | true =>
      rw [Option.some.injEq]
      constructor
      · rintro rfl
        refine ⟨List.mem_cons_self, hq, List.forall_mem_cons.2 ⟨fun _ => List.lt_irrefl _, ?_⟩⟩
        exact fun p hp _ => List.lt_asymm (hlt p hp)
      · rintro ⟨hp, -, hleast⟩
        rcases List.mem_cons.1 hp with rfl | hp
        · rfl
        · exact absurd (hlt p hp) (hleast q List.mem_cons_self hq)
    | false =>
      rw [ih h.2, List.mem_cons, List.forall_mem_cons, hq]
      constructor
      · rintro ⟨hp, htest, hleast⟩
        exact ⟨Or.inr hp, htest, nofun, hleast⟩
      · rintro ⟨rfl | hp, htest, -, hleast⟩
        · rw [hq] at htest
          cases htest
        · exact ⟨hp, htest, hleast⟩

/-! ## Nodes of a dump -/

variable {d : Dialect} {dump : Json}

/-- The first declaration of a name is that of the first node with the name and a tag. -/
theorem node_find?_declared_iff {name : String} {node : Node}
    (h : ∀ node ∈ visited d.vocabulary dump, ∃ o, declaration d.vocabulary unit node = .ok o) :
    (((visited d.vocabulary dump).filterMap (declarationAt? d.vocabulary unit)).find?
        (·.name = name)).map Declaration.node = some node ↔
      ∃ place, StandsAt d dump place node ∧ Tagged d.vocabulary node name ∧
        ∀ place' node', StandsAt d dump place' node' → Tagged d.vocabulary node' name →
          ¬ place' < place := by
  obtain ⟨ps, hps⟩ := exists_places d dump
  have htest (p : Place × Node) (hp : p ∈ ps) :
      (declarationAt? d.vocabulary unit p.2).any (·.name = name) ↔ Tagged d.vocabulary p.2 name :=
    any_declarationAt?_iff (h p.2 (hps.nodes ▸ List.mem_map_of_mem hp))
  rw [List.find?_filterMap, ← hps.nodes, List.find?_map]
  constructor
  · intro hfind
    obtain ⟨dec, hdec, rfl⟩ := Option.map_eq_some_iff.1 hfind
    obtain ⟨n, hn, hdec⟩ := Option.bind_eq_some_iff.1 hdec
    obtain ⟨p, hp, rfl⟩ := Option.map_eq_some_iff.1 hn
    rw [node_of_declarationAt? hdec]
    obtain ⟨hmem, hany, hleast⟩ := (find?_eq_some_iff_of_ascending hps.ascending).1 hp
    refine ⟨p.1, (hps.complete _ _).1 hmem, (htest p hmem).1 hany, ?_⟩
    intro place' node' hs htagged
    have hmem' := (hps.complete place' node').2 hs
    exact hleast _ hmem' ((htest _ hmem').2 htagged)
  · rintro ⟨place, hs, htagged, hleast⟩
    have hmem := (hps.complete place node).2 hs
    have hany := (htest _ hmem).2 htagged
    have hfind : (ps.find? fun p => (declarationAt? d.vocabulary unit p.2).any (·.name = name)) =
        some (place, node) :=
      (find?_eq_some_iff_of_ascending hps.ascending).2 ⟨hmem, hany, fun q hq hany' =>
        hleast q.1 q.2 ((hps.complete _ _).1 hq) ((htest q hq).1 hany')⟩
    obtain ⟨dec, hdec, -⟩ := (Option.any_eq_true _ _).1 hany
    rw [Function.comp_def, hfind, Option.map_some, Option.bind_some, hdec, Option.map_some,
      node_of_declarationAt? hdec]

/-- A type of a name is declared if a node declares it. -/
theorem exists_type_iff {name : String} {os : List (Option Declaration)}
    (h : List.Forall₂ (fun node o => declaration d.vocabulary unit node = .ok o)
      (visited d.vocabulary dump) os) :
    (∃ s ∈ (SymbolTable.ofSymbols ((os.filterMap id).filterMap Declaration.symbol)).inKinds
        SymbolKind.types, s.name = .str name) ↔
      ∃ place node kind, kind ∈ SymbolKind.types ∧ StandsAt d dump place node ∧
        DeclaresKind d.vocabulary node name kind := by
  simp only [SymbolTable.inKinds, List.mem_flatMap, SymbolTable.bucket_ofSymbols,
    filter_filterMap_symbol h, List.mem_filterMap]
  constructor
  · rintro ⟨s, ⟨kind, hkind, node, hnode, hs⟩, hname⟩
    obtain ⟨place, hstands⟩ := exists_standsAt hnode
    obtain ⟨name', hd, hs⟩ := (symbolAt?_eq_some d.lawful).1 hs
    obtain ⟨_, _, -, -, rfl⟩ := symbolOf_eq_ok.1 hs
    obtain rfl := Json.str.inj hname
    exact ⟨place, node, kind, hkind, hstands, hd⟩
  · rintro ⟨place, node, kind, hkind, hstands, hd⟩
    obtain ⟨o, -, ho⟩ := exists_right_of_mem h hstands.mem_visited
    obtain ⟨s, hs⟩ := exists_symbolAt? d.lawful ho hd
    refine ⟨s, ⟨kind, hkind, node, hstands.mem_visited, hs⟩, ?_⟩
    obtain ⟨_, _, -, -, rfl⟩ := symbolOf_eq_ok.1 (symbolOf_of_symbolAt? d.lawful hd hs)
    rfl

theorem mem_memberOwners {declared : List Declaration} {symbols : SymbolTable} {name : String}
    {node : Node} : (name, node) ∈ memberOwners declared symbols ↔
      (∃ s ∈ symbols.inKinds SymbolKind.types, s.name = .str name) ∧
        (declared.find? (·.name = name)).map Declaration.node = some node := by
  rw [memberOwners, List.mem_filterMap]
  constructor
  · rintro ⟨s, hs, hentry⟩
    obtain ⟨n, hn, hentry⟩ := Option.bind_eq_some_iff.1 hentry
    obtain ⟨dec, hdec, hentry⟩ := Option.bind_eq_some_iff.1 hentry
    obtain ⟨rfl, rfl⟩ := Prod.mk.inj (Option.some.inj hentry)
    exact ⟨⟨s, hs, Json.text?_eq_some.1 hn⟩, Option.map_eq_some_iff.2 ⟨dec, hdec, rfl⟩⟩
  · rintro ⟨⟨s, hs, hname⟩, hnode⟩
    obtain ⟨dec, hdec, rfl⟩ := Option.map_eq_some_iff.1 hnode
    refine ⟨s, hs, ?_⟩
    rw [hname]
    simp only [Json.text?, hdec, Option.bind_eq_bind, Option.bind_some]
    rfl

/-- **A type takes its members from the first node of its name.** -/
theorem mem_memberOwners_iff {declared : List Declaration}
    (h : declarations d.vocabulary unit dump = .ok declared) {name : String} {node : Node} :
    (name, node) ∈ memberOwners declared (.ofSymbols (declared.filterMap Declaration.symbol)) ↔
      ∃ place, OwnsMembers d dump place node name := by
  obtain ⟨os, hos, rfl⟩ := exists_of_declarations h
  have hread : ∀ node ∈ visited d.vocabulary dump,
      ∃ o, declaration d.vocabulary unit node = .ok o := by
    intro node hnode
    obtain ⟨o, -, ho⟩ := exists_right_of_mem hos hnode
    exact ⟨o, ho⟩
  rw [mem_memberOwners, exists_type_iff hos, declared_eq hos, node_find?_declared_iff hread]
  constructor
  · rintro ⟨htype, place, hstands, htagged, hfirst⟩
    exact ⟨place, hstands, htagged, hfirst, htype⟩
  · rintro ⟨place, hstands, htagged, hfirst, htype⟩
    exact ⟨htype, place, hstands, htagged, hfirst⟩

end DeclGraph.Ast
