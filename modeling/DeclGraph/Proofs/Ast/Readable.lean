/-
  What one node of a dump needs in order to be read.

  Most parts of a node may be of a wrong type and then count as missing.  A few are used as
  they are: the word of a record, the length of a token, and what lists supertypes or
  children.

  * `Untaggable` and `Garbled` say when the tag and the details of a node cannot be read;
  * `exists_declaration_iff`: what a declaration needs;
  * `exists_membersOf_iff`: what the members of a node need.
-/
import DeclGraph.Proofs.Ast.Extract

namespace DeclGraph.Ast

/-! ## Values -/

/-- A value that gives the length of a token: a number with an integer part, or a text that
    writes an integer. -/
def ObjC.Measures : Json → Prop
  | .int _ | .bool _ => True
  | .float x => x.truncate.isSome
  | .str s => (Text.readInt? s).isSome
  | _ => False

theorem ObjC.exists_tokenLength_iff {j : Json} : (∃ n, tokenLength j = .ok n) ↔ Measures j := by
  cases j with
  | float x => cases h : x.truncate <;> simp [tokenLength, Measures, h]
  | str s => cases h : Text.readInt? s <;> simp [tokenLength, Measures, h]
  | _ => simp [tokenLength, Measures, Json.intOrBool?]

/-! ## Parts -/

/-- The tag of a node cannot be read: it is a record, and the word that declares it is a
    collection. -/
def Untaggable (d : Dialect) (node : Node) : Prop :=
  d = .objc ∧ ObjC.kindOf node ∈ [some "RecordDecl", some "CXXRecordDecl"] ∧
    (Json.memberOrNull "tagUsed" node).isCollection = true

/-- The details of a declaration cannot be read. -/
inductive Garbled : Dialect → Node → Prop
  /-- the range is complete, and the length of its last token is none -/
  | range {node range first last : Node} : Json.memberOrNull "range" node = .obj range →
      Json.memberOrNull "begin" range = .obj first → Json.memberOrNull "end" range = .obj last →
      (Json.memberOrNull "offset" first).intOrBool?.isSome →
      (Json.memberOrNull "offset" last).intOrBool?.isSome →
      ¬ ObjC.Measures ((Json.member? "tokLen" last).getD (.int 0)) → Garbled .objc node
  /-- the protocols or the bases are no list -/
  | supertypes {node : Node} {key : String} : key ∈ ["protocols", "bases"] →
      (Json.memberOrNull key node).Unlistable → Garbled .objc node

theorem exists_tag_iff {d : Dialect} {node : Node} :
    (∃ tag, d.vocabulary.tag node = .ok tag) ↔ ¬ Untaggable d node := by
  cases d with
  | swift => exact ⟨fun _ h => absurd h.1 nofun, fun _ => ⟨_, rfl⟩⟩
  | objc =>
    change (∃ tag, ObjC.tagOf node = .ok tag) ↔ _
    rw [Untaggable, ObjC.tagOf]
    cases ObjC.kindOf node with
    | none => simp
    | some kind =>
      have hmem : some kind ∈ [some "RecordDecl", some "CXXRecordDecl"] ↔
          kind ∈ ObjC.recordKinds := by
        simp [ObjC.recordKinds]
      by_cases hkind : kind ∈ ObjC.recordKinds
      · cases hword : (Json.memberOrNull "tagUsed" node).isCollection <;>
          simp [hkind, hmem, hword]
      · simp [hkind, hmem]

theorem ObjC.exists_rangeOf_iff {node : Node} : (∃ place, rangeOf node = .ok place) ↔
    ∀ bounds, boundsOf? node = some bounds →
      Measures ((Json.member? "tokLen" bounds.2.2.2).getD (.int 0)) := by
  rw [rangeOf]
  cases boundsOf? node with
  | none => exact ⟨fun _ => nofun, fun _ => ⟨_, rfl⟩⟩
  | some bounds =>
    obtain ⟨start, from_, past, last⟩ := bounds
    dsimp only
    rw [exists_bind_eq_ok]
    simp only [Option.some.injEq, forall_eq', ← exists_tokenLength_iff]
    exact exists_congr fun width => and_iff_left ⟨_, rfl⟩

theorem ObjC.exists_supertypes_iff {node : Node} : (∃ names, supertypes node = .ok names) ↔
    ∀ key ∈ ["protocols", "bases"], ¬ (Json.memberOrNull key node).Unlistable := by
  simp only [List.forall_mem_cons, ← Json.exists_listedOrNone_iff, supertypes, exists_bind_eq_ok]
  constructor
  · rintro ⟨protocols, hprotocols, bases, hbases, -⟩
    exact ⟨⟨protocols, hprotocols⟩, ⟨bases, hbases⟩, nofun⟩
  · rintro ⟨⟨protocols, hprotocols⟩, ⟨bases, hbases⟩, -⟩
    exact ⟨protocols, hprotocols, bases, hbases, _, rfl⟩

theorem exists_details_iff {d : Dialect} {node : Node} :
    ((∃ place, d.vocabulary.range node = .ok place) ∧
      ∃ names, d.vocabulary.supertypes node = .ok names) ↔ ¬ Garbled d node := by
  cases d with
  | swift => exact ⟨fun _ => nofun, fun _ => ⟨⟨_, rfl⟩, _, rfl⟩⟩
  | objc =>
    refine (and_congr ObjC.exists_rangeOf_iff ObjC.exists_supertypes_iff).trans ⟨?_, ?_⟩
    · rintro ⟨hrange, hsupertypes⟩ (⟨hr, hf, hl, hstart, hpast, hwidth⟩ | ⟨hkey, hvalue⟩)
      · obtain ⟨start, hstart⟩ := Option.isSome_iff_exists.1 hstart
        obtain ⟨past, hpast⟩ := Option.isSome_iff_exists.1 hpast
        exact hwidth (hrange _ (ObjC.boundsOf?_eq_some.2
          ⟨_, _, _, start, past, hr, hf, hl, hstart, hpast, rfl⟩))
      · exact hsupertypes _ hkey hvalue
    · intro h
      refine ⟨fun bounds hbounds => ?_, fun key hkey hvalue => h (.supertypes hkey hvalue)⟩
      obtain ⟨range, first, last, start, past, hr, hf, hl, hstart, hpast, rfl⟩ :=
        ObjC.boundsOf?_eq_some.1 hbounds
      by_contra hwidth
      exact h (.range hr hf hl (by rw [hstart]; rfl) (by rw [hpast]; rfl) hwidth)

/-! ## Declarations -/

variable {v : Vocabulary} {unit : String}

theorem exists_symbolOf_iff {node : Node} {name : String} {kind : SymbolKind} :
    (∃ s, symbolOf v unit node name kind = .ok s) ↔
      (∃ place, v.range node = .ok place) ∧ ∃ names, v.supertypes node = .ok names := by
  simp only [symbolOf_eq_ok]
  constructor
  · rintro ⟨s, place, names, hplace, hnames, -⟩
    exact ⟨⟨place, hplace⟩, names, hnames⟩
  · rintro ⟨⟨place, hplace⟩, names, hnames⟩
    exact ⟨_, place, names, hplace, hnames, rfl⟩

theorem exists_declaration_iff (hv : v.Lawful) {node : Node} :
    (∃ o, declaration v unit node = .ok o) ↔ (∃ tag, v.tag node = .ok tag) ∧
      ∀ name kind, DeclaresKind v node name kind →
        (∃ place, v.range node = .ok place) ∧ ∃ names, v.supertypes node = .ok names := by
  constructor
  · rintro ⟨o, h⟩
    obtain ⟨tag, htag, -⟩ := bind_eq_ok.1 h
    refine ⟨⟨tag, htag⟩, fun name kind hd => ?_⟩
    obtain ⟨s, hs⟩ := exists_symbolAt? hv h hd
    obtain ⟨_, -, hs⟩ := (symbolAt?_eq_some hv).1 hs
    exact exists_symbolOf_iff.1 ⟨s, hs⟩
  · rintro ⟨⟨tag?, htag⟩, h⟩
    cases hname : v.name node with
    | none => exact ⟨none, by rw [declaration, htag, ok_bind, hname]; cases tag? <;> rfl⟩
    | some name =>
      cases tag? with
      | none => exact ⟨none, by rw [declaration, htag]; rfl⟩
      | some tag =>
        by_cases hne : tag = ""
        · refine ⟨none, ?_⟩
          rw [declaration, htag, ok_bind, hname]
          dsimp only
          rw [if_pos hne]
          rfl
        · rw [declaration_of_tag htag hname hne]
          cases hkind : SymbolKind.classify? tag with
          | none => exact ⟨_, rfl⟩
          | some kind =>
            have hd : DeclaresKind v node name kind :=
              ⟨hname, hv.name_ne hname, tag, htag, hne, hkind⟩
            exact exists_map_eq_ok.2 (exists_symbolOf_iff.2 (h name kind hd))

/-! ## The children of one node -/

theorem exists_roleOf {child : Node} (h : ∃ tag, v.tag child = .ok tag) :
    ∃ role, roleOf v child = .ok role := by
  obtain ⟨tag, htag⟩ := h
  rw [roleOf]
  split
  · exact ⟨_, rfl⟩
  · exact ⟨_, by rw [htag]; rfl⟩

theorem included_eq_nil {items : List Json} (h : ∀ item ∈ items, node? item = none) :
    included v items = [] := by
  rw [included, List.filterMap_eq_nil_iff.2 h, List.filter_nil]

/-- Whatever lists the children, only a list can hold nodes. -/
theorem included_of_listedOrNone {node : Node} {items : List Json}
    (h : (Json.memberOrNull v.childKey node).listedOrNone = .ok items) :
    included v items = included v (childValues v node) := by
  rw [childValues]
  cases hvalue : Json.memberOrNull v.childKey node with
  | arr values =>
    rw [hvalue, Json.listedOrNone_arr] at h
    rw [Except.ok.inj h]
  | _ =>
    refine included_eq_nil fun item hitem => ?_
    rw [hvalue, Json.listedOrNone] at h
    split at h
    · -- the characters of a text and the keys of an object are texts
      cases h <;> obtain ⟨_, -, rfl⟩ := List.mem_map.1 hitem <;> rfl
    · cases h
      cases hitem

theorem exists_membersOf_iff {node : Node}
    (h : ∀ child ∈ included v (childValues v node), ∃ tag, v.tag child = .ok tag) :
    (∃ set, membersOf v node = .ok set) ↔ ¬ (Json.memberOrNull v.childKey node).Unlistable := by
  rw [← Json.exists_listedOrNone_iff, membersOf, exists_bind_eq_ok]
  constructor
  · rintro ⟨nodes, hnodes, -⟩
    exact exists_map_eq_ok.1 ⟨nodes, hnodes⟩
  · rintro ⟨items, hitems⟩
    refine ⟨included v items, by rw [children, hitems]; rfl, ?_⟩
    rw [included_of_listedOrNone hitems, exists_bind_eq_ok]
    obtain ⟨roles, hroles⟩ := exists_mapM_eq_ok.2 fun child hchild => exists_roleOf (h child hchild)
    exact ⟨roles, hroles, _, rfl⟩

end DeclGraph.Ast
