/-
  What extraction reads off the nodes of a dump.

  * `declaration_eq_some` and `symbolOf_eq_ok` say what one node gives;
  * `bucket_extract`: a bucket holds the symbols of the nodes that the walk meets;
  * `extract_at_places`: these are the nodes that stand in the dump and declare
    something of the kind of the bucket, in the order of their places.
-/
import DeclGraph.Proofs.Ast.Places
import DeclGraph.Proofs.Ast.Vocabulary

namespace DeclGraph

theorem Dialect.lawful (d : Dialect) : d.vocabulary.Lawful := by
  cases d
  · exact Ast.Swift.lawful
  · exact Ast.ObjC.lawful

namespace Ast

variable {v : Vocabulary} {unit : String}

/-! ## One node -/

/-- Whether a node declares something of a kind: it has a name, and a tag that
    stands for the kind. -/
def DeclaresKind (v : Vocabulary) (node : Node) (name : String) (kind : SymbolKind) : Prop :=
  v.name node = some name ∧ name ≠ "" ∧
    ∃ tag, v.tag node = .ok (some tag) ∧ tag ≠ "" ∧ SymbolKind.classify? tag = some kind

theorem symbolOf_eq_ok {node : Node} {name : String} {kind : SymbolKind} {s : Symbol} :
    symbolOf v unit node name kind = .ok s ↔
      ∃ place supertypes, v.range node = .ok place ∧ v.supertypes node = .ok supertypes ∧
        s = {
          name := .str name, kind, file := .str unit, offset := place.1, length := place.2
          inheritedTypes := supertypes.map .str
          access := (Access.ofWord? (v.accessWord node) (some (defaultAccess unit))).getD
            (defaultAccess unit)
          rawKind := .ofText? (v.rawKind node)
          typeName := .ofText? (v.typeName node)
          extendedType := if kind = .extension then .str name else .null } := by
  constructor
  · intro h
    obtain ⟨place, hplace, h⟩ := bind_eq_ok.1 h
    obtain ⟨supertypes, hsupertypes, h⟩ := bind_eq_ok.1 h
    exact ⟨place, supertypes, hplace, hsupertypes, (Except.ok.inj h).symm⟩
  · rintro ⟨place, supertypes, hplace, hsupertypes, rfl⟩
    rw [symbolOf, hplace, ok_bind, hsupertypes]
    rfl

theorem symbolOf_kind {node : Node} {name : String} {kind : SymbolKind} {s : Symbol}
    (h : symbolOf v unit node name kind = .ok s) : s.kind = kind := by
  obtain ⟨_, _, _, _, rfl⟩ := symbolOf_eq_ok.1 h
  rfl

/-- What a node with a tag and a name declares. -/
theorem declaration_of_tag {node : Node} {tag name : String} (ht : v.tag node = .ok (some tag))
    (hn : v.name node = some name) (hne : tag ≠ "") :
    declaration v unit node = match SymbolKind.classify? tag with
      | none => .ok (some { name, node, symbol := none })
      | some kind => (symbolOf v unit node name kind).map fun s =>
        some { name, node, symbol := some s } := by
  rw [declaration, ht, ok_bind, hn]
  dsimp only
  rw [if_neg hne]
  cases SymbolKind.classify? tag with
  | none => rfl
  | some kind => cases symbolOf v unit node name kind <;> rfl

theorem declaration_eq_some {node : Node} {d : Declaration}
    (h : declaration v unit node = .ok (some d)) :
    d.node = node ∧ v.name node = some d.name ∧ ∃ tag, v.tag node = .ok (some tag) ∧ tag ≠ "" ∧
      ((SymbolKind.classify? tag = none ∧ d.symbol = none) ∨ ∃ kind s,
        SymbolKind.classify? tag = some kind ∧ symbolOf v unit node d.name kind = .ok s ∧
          d.symbol = some s) := by
  obtain ⟨tag?, ht, hd⟩ := bind_eq_ok.1 h
  cases tag? with
  | none => cases hd
  | some tag =>
    cases hn : v.name node with
    | none => rw [hn] at hd; cases hd
    | some name =>
      by_cases hne : tag = ""
      · rw [hn] at hd
        dsimp only at hd
        rw [if_pos hne] at hd
        cases hd
      · rw [declaration_of_tag ht hn hne] at h
        cases hk : SymbolKind.classify? tag with
        | none =>
          rw [hk] at h
          cases h
          exact ⟨rfl, rfl, tag, ht, hne, Or.inl ⟨hk, rfl⟩⟩
        | some kind =>
          rw [hk] at h
          obtain ⟨s, hs, h⟩ := map_eq_ok.1 h
          cases h
          exact ⟨rfl, rfl, tag, ht, hne, Or.inr ⟨kind, s, hk, hs, rfl⟩⟩

/-- The symbol of a kind that a node makes, if it makes one. -/
def symbolAt? (v : Vocabulary) (unit : String) (kind : SymbolKind) (node : Node) : Option Symbol :=
  match declaration v unit node with
  | .ok (some d) => d.symbol.filter (·.kind = kind)
  | _ => none

theorem symbolAt?_eq_some (hv : v.Lawful) {kind : SymbolKind} {node : Node} {s : Symbol} :
    symbolAt? v unit kind node = some s ↔
      ∃ name, DeclaresKind v node name kind ∧ symbolOf v unit node name kind = .ok s := by
  constructor
  · intro h
    unfold symbolAt? at h
    split at h
    · rename_i d hd
      rw [Option.filter_eq_some_iff, decide_eq_true_eq] at h
      obtain ⟨-, hn, tag, ht, hne, ⟨-, hnone⟩ | ⟨kind', s', hk, hs, hsome⟩⟩ :=
        declaration_eq_some hd
      · rw [hnone] at h; cases h.1
      · rw [hsome, Option.some.injEq] at h
        obtain ⟨rfl, rfl⟩ := h
        have := symbolOf_kind hs
        subst this
        exact ⟨d.name, ⟨hn, hv.name_ne hn, tag, ht, hne, hk⟩, hs⟩
    · cases h
  · rintro ⟨name, ⟨hn, -, tag, ht, hne, hk⟩, hs⟩
    unfold symbolAt?
    rw [declaration_of_tag ht hn hne, hk]
    dsimp only
    rw [hs]
    exact Option.filter_eq_some_iff.2 ⟨rfl, decide_eq_true (symbolOf_kind hs)⟩

/-- A node that can be read and declares something of a kind makes a symbol. -/
theorem exists_symbolAt? (hv : v.Lawful) {kind : SymbolKind} {node : Node} {name : String}
    {o : Option Declaration} (h : declaration v unit node = .ok o)
    (hd : DeclaresKind v node name kind) : ∃ s, symbolAt? v unit kind node = some s := by
  have hd' := hd
  obtain ⟨hn, -, tag, ht, hne, hk⟩ := hd'
  rw [declaration_of_tag ht hn hne, hk] at h
  obtain ⟨s, hs, -⟩ := map_eq_ok.1 h
  exact ⟨s, (symbolAt?_eq_some hv).2 ⟨name, hd, hs⟩⟩

theorem symbolOf_of_symbolAt? (hv : v.Lawful) {kind : SymbolKind} {node : Node} {name : String}
    {s : Symbol} (hd : DeclaresKind v node name kind) (h : symbolAt? v unit kind node = some s) :
    symbolOf v unit node name kind = .ok s := by
  obtain ⟨name', hd', hs⟩ := (symbolAt?_eq_some hv).1 h
  obtain rfl : name' = name := Option.some.inj (hd'.1.symm.trans hd.1)
  exact hs

/-! ## Units -/

theorem exists_of_declarations {dump : Json} {declared : List Declaration}
    (h : declarations v unit dump = .ok declared) : ∃ os,
      List.Forall₂ (fun node o => declaration v unit node = .ok o) (visited v dump) os ∧
        declared = os.filterMap id := by
  obtain ⟨os, hos, h⟩ := bind_eq_ok.1 h
  exact ⟨os, mapM_eq_ok.1 hos, (Except.ok.inj h).symm⟩

theorem exists_of_extract {d : Dialect} {dump : Json} {data : UnitData}
    (h : extract d unit dump = .ok data) : ∃ declared sets,
      declarations d.vocabulary unit dump = .ok declared ∧
      List.Forall₂ (fun owner set => set.1 = owner.1 ∧ membersOf d.vocabulary owner.2 = .ok set.2)
        (memberOwners declared (.ofSymbols (declared.filterMap Declaration.symbol))) sets ∧
      data = {
        dialect := d, symbols := .ofSymbols (declared.filterMap Declaration.symbol)
        members := Table.ofList sets } := by
  obtain ⟨declared, hdeclared, h⟩ := bind_eq_ok.1 h
  obtain ⟨sets, hsets, h⟩ := bind_eq_ok.1 h
  exact ⟨declared, sets, hdeclared, mapValuesM_eq_ok.1 hsets, (Except.ok.inj h).symm⟩

theorem symbolAt?_of_declaration {node : Node} {o : Option Declaration}
    (h : declaration v unit node = .ok o) (kind : SymbolKind) :
    symbolAt? v unit kind node = (o.bind Declaration.symbol).filter (·.kind = kind) := by
  rw [symbolAt?, h]
  cases o <;> rfl

theorem filter_filterMap_symbol {nodes : List Node} {os : List (Option Declaration)}
    (h : List.Forall₂ (fun node o => declaration v unit node = .ok o) nodes os)
    (kind : SymbolKind) :
    ((os.filterMap id).filterMap Declaration.symbol).filter (·.kind = kind) =
      nodes.filterMap (symbolAt? v unit kind) := by
  rw [List.filterMap_filterMap, List.filter_filterMap]
  induction h with
  | nil => rfl
  | cons hd _ ih =>
    rw [List.filterMap_cons, List.filterMap_cons, ih, symbolAt?_of_declaration hd]
    rfl

/-- **A bucket holds the symbols of its kind that the nodes of the dump make**, in
    the order of the walk. -/
theorem bucket_extract {d : Dialect} {dump : Json} {data : UnitData}
    (h : extract d unit dump = .ok data) (kind : SymbolKind) :
    data.symbols.bucket kind =
      (visited d.vocabulary dump).filterMap (symbolAt? d.vocabulary unit kind) := by
  obtain ⟨declared, sets, hdeclared, -, rfl⟩ := exists_of_extract h
  obtain ⟨os, hos, rfl⟩ := exists_of_declarations hdeclared
  exact filter_filterMap_symbol hos kind

theorem exists_declaration_of_extract {d : Dialect} {dump : Json} {data : UnitData}
    (h : extract d unit dump = .ok data) {node : Node} (hn : node ∈ visited d.vocabulary dump) :
    ∃ o, declaration d.vocabulary unit node = .ok o := by
  obtain ⟨declared, sets, hdeclared, -, -⟩ := exists_of_extract h
  obtain ⟨os, hos, -⟩ := exists_of_declarations hdeclared
  obtain ⟨o, -, ho⟩ := exists_right_of_mem hos hn
  exact ⟨o, ho⟩

/-! ## Places -/

/-- The symbols of a kind that nodes make, with the places of the nodes. -/
def symbolsAt (v : Vocabulary) (unit : String) (kind : SymbolKind) (ps : List (Place × Node)) :
    List (Place × Symbol) :=
  ps.filterMap fun p => (symbolAt? v unit kind p.2).map (p.1, ·)

theorem mem_symbolsAt {kind : SymbolKind} {ps : List (Place × Node)} {place : Place} {s : Symbol} :
    (place, s) ∈ symbolsAt v unit kind ps ↔
      ∃ node, (place, node) ∈ ps ∧ symbolAt? v unit kind node = some s := by
  rw [symbolsAt, List.mem_filterMap]
  constructor
  · rintro ⟨⟨place', node⟩, hp, hs⟩
    obtain ⟨s', hs', heq⟩ := Option.map_eq_some_iff.1 hs
    cases heq
    exact ⟨node, hp, hs'⟩
  · rintro ⟨node, hp, hs⟩
    exact ⟨(place, node), hp, by rw [hs]; rfl⟩

theorem map_snd_symbolsAt (kind : SymbolKind) (ps : List (Place × Node)) :
    (symbolsAt v unit kind ps).map Prod.snd =
      (ps.map Prod.snd).filterMap (symbolAt? v unit kind) := by
  rw [symbolsAt, List.map_filterMap, List.filterMap_map]
  refine List.filterMap_congr fun p _ => ?_
  rw [Option.map_map, Function.comp_apply]
  exact Option.map_id'

theorem map_fst_symbolsAt_sublist (kind : SymbolKind) (ps : List (Place × Node)) :
    ((symbolsAt v unit kind ps).map Prod.fst).Sublist (ps.map Prod.fst) := by
  induction ps with
  | nil => exact List.Sublist.refl _
  | cons p ps ih =>
    rw [symbolsAt, List.filterMap_cons, List.map_cons]
    cases symbolAt? v unit kind p.2 with
    | none => exact ih.cons _
    | some s => exact ih.cons_cons _

/-- **A bucket holds exactly the symbols of the nodes that stand in the dump and
    declare something of its kind**, once each and in the order of their places. -/
theorem extract_at_places {d : Dialect} {dump : Json} {data : UnitData}
    (h : extract d unit dump = .ok data) (kind : SymbolKind) :
    ∃ placed : List (Place × Symbol), data.symbols.bucket kind = placed.map Prod.snd ∧
      (placed.map Prod.fst).Pairwise (· < ·) ∧
      (∀ place, place ∈ placed.map Prod.fst ↔ ∃ node name,
        StandsAt d dump place node ∧ DeclaresKind d.vocabulary node name kind) ∧
      ∀ place s, (place, s) ∈ placed ↔ ∃ node name, StandsAt d dump place node ∧
        DeclaresKind d.vocabulary node name kind ∧
        symbolOf d.vocabulary unit node name kind = .ok s := by
  obtain ⟨ps, hps⟩ := exists_places d dump
  have hmem (place : Place) (s : Symbol) : (place, s) ∈ symbolsAt d.vocabulary unit kind ps ↔
      ∃ node, StandsAt d dump place node ∧ symbolAt? d.vocabulary unit kind node = some s := by
    simp only [mem_symbolsAt, hps.complete]
  refine ⟨symbolsAt d.vocabulary unit kind ps, ?_, ?_, fun place => ?_, fun place s => ?_⟩
  · rw [bucket_extract h, map_snd_symbolsAt, hps.nodes]
  · exact hps.ascending.sublist (map_fst_symbolsAt_sublist kind ps)
  · constructor
    · intro hplace
      obtain ⟨⟨_, s⟩, hs, rfl⟩ := List.mem_map.1 hplace
      obtain ⟨node, hstands, hs⟩ := (hmem _ _).1 hs
      obtain ⟨name, hd, -⟩ := (symbolAt?_eq_some d.lawful).1 hs
      exact ⟨node, name, hstands, hd⟩
    · rintro ⟨node, name, hstands, hd⟩
      have hvisited : node ∈ visited d.vocabulary dump :=
        hps.nodes ▸ List.mem_map_of_mem ((hps.complete _ _).2 hstands)
      obtain ⟨o, ho⟩ := exists_declaration_of_extract h hvisited
      obtain ⟨s, hs⟩ := exists_symbolAt? d.lawful ho hd
      exact List.mem_map_of_mem ((hmem place s).2 ⟨node, hstands, hs⟩)
  · rw [hmem]
    constructor
    · rintro ⟨node, hstands, hs⟩
      obtain ⟨name, hd, hs⟩ := (symbolAt?_eq_some d.lawful).1 hs
      exact ⟨node, name, hstands, hd, hs⟩
    · rintro ⟨node, name, hstands, hd, hs⟩
      exact ⟨node, hstands, (symbolAt?_eq_some d.lawful).2 ⟨name, hd, hs⟩⟩

/-- A class with an implicit child and a child without a kind, both of which have
    a struct below them. -/
def classWithStructs : Json :=
  let struct (name : String) : Json :=
    .obj [("key.kind", .str "source.lang.swift.decl.struct"), ("key.name", .str name)]
  .obj [("key.kind", .str "source.lang.swift.decl.class"), ("key.name", .str "A"),
    ("key.substructure", .arr [
      .obj [("key.is_implicit", .bool true), ("key.substructure", .arr [struct "B"])],
      .obj [("key.substructure", .arr [struct "C"])]])]

/-- Only the struct below the child that is not implicit is found. -/
theorem extract_classWithStructs_at_places : ∃ data, ∃ placed : List (Place × Symbol),
    extract .swift "A.swift" classWithStructs = .ok data ∧
    (data.symbols.bucket .struct).map Symbol.name = [.str "C"] ∧
    data.symbols.bucket .struct = placed.map Prod.snd ∧ (placed.map Prod.fst).Pairwise (· < ·) ∧
    ∀ place, place ∈ placed.map Prod.fst ↔ ∃ node name,
      StandsAt .swift classWithStructs place node ∧
        DeclaresKind Dialect.swift.vocabulary node name .struct := by
  have hnames : (extract .swift "A.swift" classWithStructs).toOption.map
      (fun data => (data.symbols.bucket .struct).map Symbol.name) = some [.str "C"] := by
    decide +kernel
  cases h : extract .swift "A.swift" classWithStructs with
  | error f => rw [h] at hnames; cases hnames
  | ok data =>
    rw [h] at hnames
    obtain ⟨placed, hbucket, hascending, hplaces, -⟩ := extract_at_places h .struct
    exact ⟨data, placed, rfl, Option.some.inj hnames, hbucket, hascending, hplaces⟩

end Ast

end DeclGraph
