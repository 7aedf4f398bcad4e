/-
  Which dumps cannot be read.

  A value of a wrong type costs the whole dump if it stands where a node needs another one.

  * `Refused` lists these places: the word of a record, the details of a node that declares
    something, and the children of a node that a type takes its members from;
  * `exists_extract_iff`: a dump can be read exactly if it is not refused.
-/
import DeclGraph.Proofs.Ast.Owners

namespace DeclGraph.Ast

variable {d : Dialect} {unit : String} {dump : Json}

/-- Why a dump cannot be read. -/
inductive Refused (d : Dialect) (dump : Json) : Prop
  | tag {place : Place} {node : Node} : StandsAt d dump place node → Untaggable d node →
      Refused d dump
  | details {place : Place} {node : Node} {name : String} {kind : SymbolKind} :
      StandsAt d dump place node → DeclaresKind d.vocabulary node name kind → Garbled d node →
      Refused d dump
  | members {place : Place} {node : Node} {name : String} : OwnsMembers d dump place node name →
      (Json.memberOrNull d.vocabulary.childKey node).Unlistable → Refused d dump

theorem exists_declarations_iff :
    (∃ declared, declarations d.vocabulary unit dump = .ok declared) ↔
      ∀ place node, StandsAt d dump place node → ¬ Untaggable d node ∧
        ∀ name kind, DeclaresKind d.vocabulary node name kind → ¬ Garbled d node := by
  have hread : (∃ declared, declarations d.vocabulary unit dump = .ok declared) ↔
      ∀ node ∈ visited d.vocabulary dump, ∃ o, declaration d.vocabulary unit node = .ok o := by
    rw [declarations, ← exists_mapM_eq_ok, exists_bind_eq_ok]
    exact exists_congr fun os => and_iff_left ⟨_, rfl⟩
  simp only [hread, exists_declaration_iff d.lawful, exists_tag_iff, exists_details_iff]
  constructor
  · exact fun h place node hs => h node hs.mem_visited
  · intro h node hnode
    obtain ⟨place, hs⟩ := exists_standsAt hnode
    exact h place node hs

/-- The children of an owner stand in the dump too, so that only their list can be at fault. -/
theorem OwnsMembers.exists_membersOf_iff {place : Place} {node : Node} {name : String}
    {declared : List Declaration} (h : OwnsMembers d dump place node name)
    (hdeclared : declarations d.vocabulary unit dump = .ok declared) :
    (∃ set, membersOf d.vocabulary node = .ok set) ↔
      ¬ (Json.memberOrNull d.vocabulary.childKey node).Unlistable := by
  refine Ast.exists_membersOf_iff fun child hchild => exists_tag_iff.2 ?_
  obtain ⟨place', hs⟩ := h.stands.exists_of_included hchild
  exact (exists_declarations_iff.1 ⟨declared, hdeclared⟩ place' child hs).1

/-- **A dump can be read exactly if it is not refused.** -/
theorem exists_extract_iff : (∃ data, extract d unit dump = .ok data) ↔ ¬ Refused d dump := by
  constructor
  · rintro ⟨data, h⟩ hrefused
    obtain ⟨declared, sets, hdeclared, hsets, -⟩ := exists_of_extract h
    have hnodes := exists_declarations_iff.1 ⟨declared, hdeclared⟩
    cases hrefused with
    | tag hs htag => exact (hnodes _ _ hs).1 htag
    | details hs hd hgarbled => exact (hnodes _ _ hs).2 _ _ hd hgarbled
    | members howns hchildren =>
      have howner := (mem_memberOwners_iff hdeclared).2 ⟨_, howns⟩
      obtain ⟨set, -, -, hset⟩ := exists_right_of_mem hsets howner
      exact (howns.exists_membersOf_iff hdeclared).1 ⟨set.2, hset⟩ hchildren
  · intro hn
    obtain ⟨declared, hdeclared⟩ := exists_declarations_iff.2 fun place node hs =>
      ⟨fun h => hn (.tag hs h), fun name kind hd h => hn (.details hs hd h)⟩
    have howners : ∀ owner ∈ memberOwners declared
          (.ofSymbols (declared.filterMap Declaration.symbol)),
        ∃ set, membersOf d.vocabulary owner.2 = .ok set := by
      intro owner howner
      obtain ⟨place, howns⟩ := (mem_memberOwners_iff hdeclared).1 howner
      exact (howns.exists_membersOf_iff hdeclared).2 fun h => hn (.members howns h)
    obtain ⟨sets, hsets⟩ := exists_mapValuesM_eq_ok.2 howners
    exact ⟨_, bind_eq_ok.2 ⟨declared, hdeclared, bind_eq_ok.2 ⟨sets, hsets, rfl⟩⟩⟩

/-! ## What is read -/

/-- Whether every node that stands in a dump and declares something has its symbol in the
    bucket of its kind. -/
def Records (d : Dialect) (unit : String) (dump : Json) (data : UnitData) : Prop :=
  ∀ place node name kind, StandsAt d dump place node → DeclaresKind d.vocabulary node name kind →
    ∃ s ∈ data.symbols.bucket kind, symbolOf d.vocabulary unit node name kind = .ok s

theorem records_of_extract {data : UnitData} (h : extract d unit dump = .ok data) :
    Records d unit dump data := by
  intro place node name kind hs hd
  obtain ⟨o, ho⟩ := exists_declaration_of_extract h hs.mem_visited
  obtain ⟨s, hsome⟩ := exists_symbolAt? d.lawful ho hd
  refine ⟨s, ?_, symbolOf_of_symbolAt? d.lawful hd hsome⟩
  rw [bucket_extract h]
  exact List.mem_filterMap.2 ⟨node, hs.mem_visited, hsome⟩

end DeclGraph.Ast
