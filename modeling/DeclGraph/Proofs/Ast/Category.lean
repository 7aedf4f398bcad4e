/-
  Categories without a class.

  A category that refers to no class has no name, so that it declares nothing.  What stands below
  it is walked all the same.

  * `ObjC.Malformed` says which categories refer to no class;
  * `Superfluous`: nothing at or below a place makes a symbol or gives a type other members;
  * `extract_without_category`: what a unit is without a malformed category.
-/
import DeclGraph.Proofs.Ast.Refused
import DeclGraph.Proofs.Ast.Removal

namespace DeclGraph.Ast

variable {d : Dialect} {dump dump' : Json} {place : Place} {unit : String}

/-! ## What is left -/

theorem symbolAt?_of_sameBut {v : Vocabulary} (hv : v.Shallow) {node node' : Node}
    (h : SameBut v.childKey node' node) (kind : SymbolKind) :
    symbolAt? v unit kind node' = symbolAt? v unit kind node := by
  rw [symbolAt?, declaration_of_sameBut hv h, symbolAt?]
  cases declaration v unit node with
  | error fault => rfl
  | ok o => cases o <;> rfl

theorem OwnsMembers.exists_set {node : Node} {name : String} {data : UnitData}
    (howns : OwnsMembers d dump place node name) (hdata : extract d unit dump = .ok data) :
    ∃ set, membersOf d.vocabulary node = .ok set := by
  obtain ⟨declared, sets, hdeclared, hsets, -⟩ := exists_of_extract hdata
  obtain ⟨set, -, -, hset⟩ :=
    exists_right_of_mem hsets ((mem_memberOwners_iff hdeclared).2 ⟨place, howns⟩)
  exact ⟨set.2, hset⟩

/-- What stands at or below a place can be done without: it declares no kind, and a type that takes
    its members from there takes the same ones from another node if it is gone. -/
structure Superfluous (d : Dialect) (place : Place) (dump dump' : Json) : Prop where
  kindless : ∀ rest node name kind, StandsAt d dump (place ++ rest) node →
    ¬ DeclaresKind d.vocabulary node name kind
  replaced : ∀ rest node name, OwnsMembers d dump (place ++ rest) node name →
    ∃ place' node', OwnsMembers d dump' place' node' name ∧
      membersOf d.vocabulary node' = membersOf d.vocabulary node

namespace Split

variable {front between back : List (Place × Node)} {front' : List Node}
  (h : Split d place dump dump' front between back front')
include h

theorem mem_between_iff {node : Node} :
    node ∈ between.map Prod.snd ↔ ∃ rest, StandsAt d dump (place ++ rest) node := by
  constructor
  · intro hnode
    obtain ⟨p, hp, rfl⟩ := List.mem_map.1 hnode
    obtain ⟨rest, hrest⟩ := h.within p hp
    refine ⟨rest, (h.placed.complete _ _).1 ?_⟩
    rw [hrest]
    exact List.mem_append_left _ (List.mem_append_right _ hp)
  · rintro ⟨rest, hstands⟩
    have hmem := (h.placed.complete _ _).2 hstands
    simp only [List.mem_append] at hmem
    rcases hmem with (hfront | hbetween) | hback
    · exact absurd (List.prefix_append place rest) (h.beside _ (List.mem_append_left _ hfront))
    · exact List.mem_map_of_mem hbetween
    · exact absurd (List.prefix_append place rest) (h.beside _ (List.mem_append_right _ hback))

theorem visited_eq : visited d.vocabulary dump =
    front.map Prod.snd ++ between.map Prod.snd ++ back.map Prod.snd := by
  rw [← h.placed.nodes, List.map_append, List.map_append]

theorem readings_eq : readings d.vocabulary unit (visited d.vocabulary dump) = do
    let rs ← readings d.vocabulary unit (front.map Prod.snd)
    let rs' ← readings d.vocabulary unit (between.map Prod.snd)
    let rs'' ← readings d.vocabulary unit (back.map Prod.snd)
    return rs ++ rs' ++ rs'' := by
  rw [h.visited_eq, readings_append, readings_append, bind_assoc]
  refine bind_congr fun rs => ?_
  rw [bind_assoc]
  rfl

theorem readings_left : readings d.vocabulary unit (visited d.vocabulary dump') = do
    let rs ← readings d.vocabulary unit (front.map Prod.snd)
    let rs'' ← readings d.vocabulary unit (back.map Prod.snd)
    return rs ++ rs'' := by
  rw [h.left, readings_append, readings_of_leaves (shallow_vocabulary d) h.leaves]

/-- If no node before the place has the name of a type and one within has, the type takes its
    members from there. -/
theorem prefix_of_ownsMembers {p : Place} {node : Node} {name : String}
    (howns : OwnsMembers d dump p node name)
    (hfront : ∀ n ∈ front.map Prod.snd, ¬ Tagged d.vocabulary n name)
    (hbetween : ∃ n ∈ between.map Prod.snd, Tagged d.vocabulary n name) : place <+: p := by
  have hmem := (h.placed.complete _ _).2 howns.stands
  rw [List.mem_append, List.mem_append] at hmem
  rcases hmem with (hmem | hmem) | hmem
  · exact absurd howns.tagged (hfront _ (List.mem_map_of_mem hmem))
  · exact h.within _ hmem
  · obtain ⟨n, hn, htagged⟩ := hbetween
    obtain ⟨⟨q, n⟩, hq, rfl⟩ := List.mem_map.1 hn
    have hall := List.mem_append_left back (List.mem_append_right front hq)
    have hlt : q < p := by
      have hascending := h.placed.ascending
      rw [List.map_append, List.pairwise_append] at hascending
      refine hascending.2.2 q ?_ p (List.mem_map_of_mem hmem)
      exact List.mem_map_of_mem (List.mem_append_right front hq)
    exact absurd hlt (howns.first q n ((h.placed.complete _ _).1 hall) htagged)

/-- Each bucket loses the symbols of the nodes at or below the place. -/
theorem buckets {data data' : UnitData} (hdata : extract d unit dump = .ok data)
    (hdata' : extract d unit dump' = .ok data') (kind : SymbolKind) :
    let symbolsOf (ps : List (Place × Node)) : List Symbol :=
      (ps.map Prod.snd).filterMap (symbolAt? d.vocabulary unit kind)
    data.symbols.bucket kind = symbolsOf front ++ symbolsOf between ++ symbolsOf back ∧
      data'.symbols.bucket kind = symbolsOf front ++ symbolsOf back := by
  intro symbolsOf
  have hleaves : front'.filterMap (symbolAt? d.vocabulary unit kind) = symbolsOf front := by
    exact filterMap_eq_filterMap_of_forall₂ (h.leaves.imp fun _ _ hleaves =>
      symbolAt?_of_sameBut (shallow_vocabulary d) hleaves.sameBut kind)
  constructor
  · rw [bucket_extract hdata, h.visited_eq, List.filterMap_append, List.filterMap_append]
  · rw [bucket_extract hdata', h.left, List.filterMap_append, hleaves]

/-- The readings of a dump, and those of what is left. -/
theorem exists_readings {rs : List Reading}
    (hread : readings d.vocabulary unit (visited d.vocabulary dump) = .ok rs) :
    ∃ first within last, rs = first ++ within ++ last ∧
      readings d.vocabulary unit (front.map Prod.snd) = .ok first ∧
      readings d.vocabulary unit (between.map Prod.snd) = .ok within ∧
      readings d.vocabulary unit (visited d.vocabulary dump') = .ok (first ++ last) := by
  rw [h.readings_eq] at hread
  obtain ⟨first, hfirst, hread⟩ := bind_eq_ok.1 hread
  obtain ⟨within, hwithin, hread⟩ := bind_eq_ok.1 hread
  obtain ⟨last, hlast, hread⟩ := bind_eq_ok.1 hread
  refine ⟨first, within, last, (Except.ok.inj hread).symm, hfirst, hwithin, ?_⟩
  rw [h.readings_left, hfirst, ok_bind, hlast]
  rfl

/-- **What can be done without leaves the unit as it is.** -/
theorem extract_of_superfluous {data : UnitData} (hdata : extract d unit dump = .ok data)
    (hidle : Superfluous d place dump dump') : extract d unit dump' = .ok data := by
  obtain ⟨rs, hread, hassemble⟩ :=
    bind_eq_ok.1 ((extract_eq_assemble d unit dump).symm.trans hdata)
  obtain ⟨first, within, last, rfl, hfirst, hwithin, hleft⟩ := h.exists_readings hread
  have hsymbols : within.filterMap Reading.symbol = [] := by
    refine symbols_readings_eq_nil d.lawful hwithin fun node hnode name kind => ?_
    obtain ⟨rest, hstands⟩ := h.mem_between_iff.1 hnode
    exact hidle.kindless rest node name kind hstands
  rw [extract_eq_assemble, hleft, ok_bind, ← hassemble]
  refine assemble_congr d ?_ fun s hs name hname => ?_
  · rw [List.filterMap_append, List.filterMap_append, List.filterMap_append, hsymbols,
      List.append_nil]
  have hnamed : membersNamed (first ++ within ++ last) name =
      ((membersNamed first name).or (membersNamed within name)).or (membersNamed last name) := by
    rw [membersNamed_append, membersNamed_append]
  rw [membersNamed_append, hnamed]
  cases hfront : membersNamed first name with
  | some members => rfl
  | none =>
    cases hbetween : membersNamed within name with
    | none => rfl
    | some members =>
      -- the type takes its members from the place, and after that from another node
      rw [hfront, hbetween, Option.none_or, Option.some_or] at hnamed
      obtain ⟨p, node, howns, rfl⟩ :=
        (membersNamed_eq_some_iff hread).1 ⟨⟨s, hs, hname⟩, hnamed⟩
      have hnone : ∀ n ∈ front.map Prod.snd, ¬ Tagged d.vocabulary n name := fun n hn htagged => by
        have hsome := (isSome_membersNamed_iff hfirst).2 ⟨n, hn, htagged⟩
        rw [hfront] at hsome
        cases hsome
      obtain ⟨rest, rfl⟩ := h.prefix_of_ownsMembers howns hnone
        ((isSome_membersNamed_iff hwithin).1 (by rw [hbetween]; rfl))
      obtain ⟨place', node', howns', hmembers⟩ := hidle.replaced rest node name howns
      obtain ⟨-, hleftNamed⟩ := (membersNamed_eq_some_iff hleft).2 ⟨place', node', howns', hmembers⟩
      rw [membersNamed_append, hfront] at hleftNamed
      exact hleftNamed

/-- … and nothing else does. -/
theorem superfluous_of_extract {data : UnitData} (hdata : extract d unit dump = .ok data)
    (hdata' : extract d unit dump' = .ok data) : Superfluous d place dump dump' where
  kindless rest node name kind hstands hkind := by
    obtain ⟨hbucket, hbucket'⟩ := h.buckets hdata hdata' kind
    have hnil : (between.map Prod.snd).filterMap (symbolAt? d.vocabulary unit kind) = [] := by
      have hlength := congrArg List.length (hbucket.symm.trans hbucket')
      simp only [List.length_append] at hlength
      exact List.eq_nil_of_length_eq_zero (by omega)
    obtain ⟨o, ho⟩ := exists_declaration_of_extract hdata hstands.mem_visited
    obtain ⟨s, hs⟩ := exists_symbolAt? d.lawful ho hkind
    have hmem := List.mem_filterMap.2 ⟨node, h.mem_between_iff.2 ⟨rest, hstands⟩, hs⟩
    rw [hnil] at hmem
    cases hmem
  replaced rest node name howns := by
    obtain ⟨set, hset⟩ := howns.exists_set hdata
    obtain ⟨place', node', howns', hset'⟩ :=
      (mem_members_iff hdata').1 ((mem_members_iff hdata).2 ⟨_, node, howns, hset⟩)
    exact ⟨place', node', howns', hset'.trans hset.symm⟩

/-- What declares nothing is not seen, also if the dump cannot be read. -/
theorem extract_of_bare (hbare : ∀ rest node, StandsAt d dump (place ++ rest) node →
      ¬ Untaggable d node ∧ ∀ name, ¬ Tagged d.vocabulary node name) :
    extract d unit dump' = extract d unit dump := by
  have hbetween : readings d.vocabulary unit (between.map Prod.snd) = .ok [] := by
    refine readings_eq_nil fun node hnode => ?_
    obtain ⟨rest, hstands⟩ := h.mem_between_iff.1 hnode
    obtain ⟨htag, hname⟩ := hbare rest node hstands
    exact declaration_eq_none (exists_tag_iff.2 htag) hname
  have hsame : readings d.vocabulary unit (visited d.vocabulary dump') =
      readings d.vocabulary unit (visited d.vocabulary dump) := by
    rw [h.readings_left, h.readings_eq, hbetween]
    simp only [ok_bind, List.append_nil]
  rw [extract_eq_assemble, hsame, extract_eq_assemble]

end Split

/-! ## Malformed categories -/

/-- A reference gives the name of a declaration: as a text, or in an object that is not a null
    pointer. -/
inductive ObjC.RefersTo : Json → String → Prop
  | text {name : String} : name ≠ "" → name ≠ "0x0" → RefersTo (.str name) name
  | object {reference : Node} {name : String} : Json.memberOrNull "id" reference ≠ .str "0x0" →
      Json.memberOrNull "name" reference = .str name → name ≠ "" → RefersTo (.obj reference) name

/-- A category that refers to no class. -/
structure ObjC.Malformed (node : Node) : Prop where
  isCategory : Json.memberOrNull "kind" node = .str "ObjCCategoryDecl"
  nameless : ∀ name, ¬ RefersTo (Json.memberOrNull "interface" node) name

theorem ObjC.refName?_eq_some_iff {j : Json} {name : String} :
    refName? j = some name ↔ RefersTo j name := by
  constructor
  · intro h
    unfold refName? at h
    split at h
    · split at h
      · cases h
      · rename_i s hnull
        obtain ⟨hs, hne⟩ := Json.nonEmptyText?_eq_some.1 h
        obtain rfl := Json.str.inj hs
        exact .text hne hnull
    · split at h
      · cases h
      · rename_i ms hnull
        obtain ⟨hname, hne⟩ := Json.nonEmptyText?_eq_some.1 h
        exact .object (fun hid => hnull (Json.isText_iff.2 hid)) hname hne
    · cases h
  · intro h
    cases h with
    | text hne hnull =>
      have hpointer : name ≠ nullPointer := hnull
      rw [refName?, if_neg hpointer]
      exact Json.nonEmptyText?_eq_some.2 ⟨rfl, hne⟩
    | @object reference _ hid hname hne =>
      have hpointer : ¬ (Json.memberOrNull "id" reference).isText nullPointer :=
        fun hnull => hid (Json.isText_iff.1 hnull)
      rw [refName?, if_neg hpointer]
      exact Json.nonEmptyText?_eq_some.2 ⟨hname, hne⟩

/-- A malformed category has no name. -/
theorem ObjC.Malformed.name_eq_none {cat : Node} (h : Malformed cat) :
    Dialect.objc.vocabulary.name cat = none := by
  have hkind : kindOf cat = some "ObjCCategoryDecl" := Json.text?_eq_some.2 h.isCategory
  change nameOf cat = none
  rw [nameOf, if_pos hkind, Option.eq_none_iff_forall_ne_some]
  exact fun name href => h.nameless name (refName?_eq_some_iff.1 href)

/-- **What a unit is without a malformed category.**  The category leaves no trace of its own: the
    unit is the same without it, with all that stands below it, exactly if nothing below it declares
    a kind or gives a type other members; so it is if nothing below it has a name and a tag.  In
    general each bucket loses what stands below the category, and nothing else. -/
theorem extract_without_category {cat : Node} (hcat : ObjC.Malformed cat) {place : Place}
    {dump dump' : Json} (hremoved : Removed .objc (.obj cat) place dump dump') (unit : String) :
    ((∀ rest node, StandsAt .objc dump (place ++ rest) node → ¬ Untaggable .objc node ∧
        ∀ name, ¬ Tagged Dialect.objc.vocabulary node name) →
      extract .objc unit dump' = extract .objc unit dump) ∧
    ∀ data, extract .objc unit dump = .ok data →
      (extract .objc unit dump' = .ok data ↔ Superfluous .objc place dump dump') ∧
      ∀ data', extract .objc unit dump' = .ok data' → ∀ kind, ∃ front within back,
        data.symbols.bucket kind = front ++ within ++ back ∧
        data'.symbols.bucket kind = front ++ back ∧
        ∀ s, s ∈ within ↔ ∃ rest node name, StandsAt .objc dump (place ++ rest) node ∧
          DeclaresKind Dialect.objc.vocabulary node name kind ∧
          symbolOf Dialect.objc.vocabulary unit node name kind = .ok s := by
  obtain ⟨front, between, back, front', h⟩ := exists_split hcat.name_eq_none hremoved
  refine ⟨h.extract_of_bare, fun data hdata => ⟨⟨h.superfluous_of_extract hdata,
    h.extract_of_superfluous hdata⟩, fun data' hdata' kind => ?_⟩⟩
  obtain ⟨hbucket, hbucket'⟩ := h.buckets hdata hdata' kind
  refine ⟨_, _, _, hbucket, hbucket', fun s => ?_⟩
  rw [List.mem_filterMap]
  simp only [h.mem_between_iff, symbolAt?_eq_some (Dialect.lawful .objc)]
  constructor
  · rintro ⟨node, ⟨rest, hstands⟩, name, hkind, hs⟩
    exact ⟨rest, node, name, hstands, hkind, hs⟩
  · rintro ⟨rest, node, name, hstands, hkind, hs⟩
    exact ⟨node, ⟨rest, hstands⟩, name, hkind, hs⟩

/-- A translation unit with some nodes. -/
def translationUnit (items : List Json) : Json :=
  .obj [("kind", .str "TranslationUnitDecl"), ("inner", .arr items)]

/-- A category of a null pointer, with some nodes below it. -/
def nullCategory (items : List Json) : Node :=
  [("kind", .str "ObjCCategoryDecl"), ("interface", .null), ("inner", .arr items)]

/-- A malformed category with a method is seen: the unit has the method as a function.  Without the
    method it is not seen. -/
theorem extract_without_nullCategory :
    let method : Node := [("kind", .str "ObjCMethodDecl"), ("name", .str "m")]
    (∀ items, ObjC.Malformed (nullCategory items) ∧
      Removed .objc (.obj (nullCategory items)) [0]
        (translationUnit [.obj (nullCategory items)]) (translationUnit [])) ∧
    extract .objc "A.m" (translationUnit []) =
      extract .objc "A.m" (translationUnit [.obj (nullCategory [])]) ∧
    ∃ data, extract .objc "A.m" (translationUnit [.obj (nullCategory [.obj method])]) = .ok data ∧
      extract .objc "A.m" (translationUnit []) ≠ .ok data := by
  intro method
  have hmalformed (items : List Json) : ObjC.Malformed (nullCategory items) := ⟨rfl, nofun⟩
  have hremoved (items : List Json) : Removed .objc (.obj (nullCategory items)) [0]
      (translationUnit [.obj (nullCategory items)]) (translationUnit []) := by
    have hleft : SameBut "inner" [("kind", .str "TranslationUnitDecl"), ("inner", .arr [])]
        [("kind", .str "TranslationUnitDecl"), ("inner", .arr [.obj (nullCategory items)])] := by
      intro other hne
      have hinner : (other == "inner") = false := beq_eq_false_iff_ne.2 hne
      cases hkind : other == "kind" <;>
        simp [Json.memberOrNull, Json.member?, List.lookup_cons, hkind, hinner]
    exact @Removed.item .objc _ _ _ [] [] rfl rfl hleft
  refine ⟨fun items => ⟨hmalformed items, hremoved items⟩, ?_, ?_⟩
  · refine (extract_without_category (hmalformed []) (hremoved []) "A.m").1 fun rest node h => ?_
    have hnone : ∀ n ∈ visited Dialect.objc.vocabulary (translationUnit [.obj (nullCategory [])]),
        Dialect.objc.vocabulary.name n = none ∧
          (Dialect.objc.vocabulary.tag n).toOption.isSome := by
      decide +kernel
    obtain ⟨hname, htag⟩ := hnone node h.mem_visited
    refine ⟨exists_tag_iff.1 ?_, fun name htagged => ?_⟩
    · cases hread : Dialect.objc.vocabulary.tag node with
      | error fault => rw [hread] at htag; cases htag
      | ok tag => exact ⟨tag, rfl⟩
    · cases hname.symm.trans htagged.1
  · have hread : (extract .objc "A.m"
        (translationUnit [.obj (nullCategory [.obj method])])).toOption.isSome := by
      decide +kernel
    cases hdata : extract .objc "A.m" (translationUnit [.obj (nullCategory [.obj method])]) with
    | error fault => rw [hdata] at hread; cases hread
    | ok data =>
      refine ⟨data, rfl, fun hsame => ?_⟩
      have hidle := ((extract_without_category (hmalformed _) (hremoved [.obj method])
        "A.m").2 data hdata).1.1 hsame
      have hincluded (node : Node) (h : Dialect.objc.vocabulary.excluded node = false) :
          ¬ Excludes .objc node := excluded_eq_false_iff.1 h
      have hstands : StandsAt .objc (translationUnit [.obj (nullCategory [.obj method])])
          ([0] ++ [0]) method :=
        .child (hincluded _ (by decide +kernel)) rfl rfl
          (.child (hincluded _ (by decide +kernel)) rfl rfl (.root (hincluded _ (by decide +kernel))))
      refine hidle.kindless [0] method "m" .function hstands ⟨rfl, by decide, ?_⟩
      exact ⟨"objc.decl.method", by decide +kernel, by decide, by decide +kernel⟩

end DeclGraph.Ast
