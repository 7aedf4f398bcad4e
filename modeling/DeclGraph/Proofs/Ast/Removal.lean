/-
  Dumps with one value taken out of a list of children.

  * `Removed` says what is left of a dump without the value at a place;
  * `Split`: the walk through the dump meets the nodes before the place, those at or below it and
    those after it, and what is left is walked like the dump without the second ones;
  * `exists_split`: so it is for every value without a name.
-/
import DeclGraph.Proofs.Ast.Members
import DeclGraph.Proofs.Ast.Owners
import DeclGraph.Proofs.Ast.Prune
import DeclGraph.Proofs.Ast.Reading

namespace DeclGraph.Ast

variable {d : Dialect} {gone dump dump' : Json} {place : Place}

/-! ## Removal -/

/-- What is left of a dump without the value at a place in a list of children: the nodes above it
    are as they were, apart from their lists. -/
inductive Removed (d : Dialect) (gone : Json) : Place → Json → Json → Prop
  | item {node node' : Node} {before after : List Json} :
      Json.memberOrNull d.vocabulary.childKey node = .arr (before ++ gone :: after) →
      Json.memberOrNull d.vocabulary.childKey node' = .arr (before ++ after) →
      SameBut d.vocabulary.childKey node' node →
      Removed d gone [before.length] (.obj node) (.obj node')
  | deeper {node node' : Node} {before after : List Json} {item item' : Json} {place : Place} :
      Json.memberOrNull d.vocabulary.childKey node = .arr (before ++ item :: after) →
      Json.memberOrNull d.vocabulary.childKey node' = .arr (before ++ item' :: after) →
      SameBut d.vocabulary.childKey node' node → Removed d gone place item item' →
      Removed d gone (before.length :: place) (.obj node) (.obj node')

/-- A node of what is left, and the one that it was: it reads the same, and it lists the same
    members. -/
structure Leaves (v : Vocabulary) (node' node : Node) : Prop where
  sameBut : SameBut v.childKey node' node
  members : membersOf v node' = membersOf v node

theorem Leaves.refl (v : Vocabulary) (node : Node) : Leaves v node node :=
  ⟨fun _ _ => rfl, rfl⟩

/-- How the walk through a dump splits at a place: the nodes before the place, those at or below
    it, and those after it; and what is left of the first ones. -/
structure Split (d : Dialect) (place : Place) (dump dump' : Json)
    (front between back : List (Place × Node)) (front' : List Node) : Prop where
  placed : Placed d dump (front ++ between ++ back)
  within : ∀ p ∈ between, place <+: p.1
  beside : ∀ p ∈ front ++ back, ¬ place <+: p.1
  left : visited d.vocabulary dump' = front' ++ back.map Prod.snd
  leaves : List.Forall₂ (Leaves d.vocabulary) front' (front.map Prod.snd)

/-! ## Members -/

section
variable {v : Vocabulary}

theorem included_append (xs ys : List Json) :
    included v (xs ++ ys) = included v xs ++ included v ys := by
  simp [included]

theorem included_obj (node : Node) (items : List Json) :
    included v (.obj node :: items) =
      (if v.excluded node then [] else [node]) ++ included v items := by
  cases h : v.excluded node <;> simp [included, node?, h]

/-- The members of a node depend on the roles of its children only. -/
theorem membersOf_congr {node node' : Node} {items items' : List Json}
    (hitems : Json.memberOrNull v.childKey node = .arr items)
    (hitems' : Json.memberOrNull v.childKey node' = .arr items')
    (hroles : ((included v items').mapM (roleOf v)).map (List.filterMap id) =
      ((included v items).mapM (roleOf v)).map (List.filterMap id)) :
    membersOf v node' = membersOf v node := by
  have hmembers {n : Node} {js : List Json} (h : Json.memberOrNull v.childKey n = .arr js) :
      membersOf v n = (((included v js).mapM (roleOf v)).map (List.filterMap id)).map
        membersIn := by
    rw [membersOf, children, h, Json.listedOrNone_arr, map_ok, ok_bind]
    cases (included v js).mapM (roleOf v) <;> rfl
  rw [hmembers hitems', hmembers hitems, hroles]

/-- A child without a name has no role. -/
theorem roles_without {cat : Node} (hname : v.name cat = none) (before after : List Json) :
    ((included v (before ++ after)).mapM (roleOf v)).map (List.filterMap id) =
      ((included v (before ++ .obj cat :: after)).mapM (roleOf v)).map (List.filterMap id) := by
  have hrole : roleOf v cat = .ok none := by
    rw [roleOf, hname]
    rfl
  rw [included_append, included_append, included_obj]
  split
  · rfl
  · rw [List.singleton_append, List.mapM_append, List.mapM_append, List.mapM_cons, hrole]
    cases (included v before).mapM (roleOf v) with
    | error fault => rfl
    | ok roles =>
      cases (included v after).mapM (roleOf v) with
      | error fault => rfl
      | ok roles' => simp [pure, Except.pure, bind, Except.bind, Except.map]

/-- What is read off a child but for its own children gives its role. -/
theorem roles_replaced (hv : v.Shallow) {node node' : Node} (h : SameBut v.childKey node' node)
    (before after : List Json) :
    ((included v (before ++ .obj node' :: after)).mapM (roleOf v)).map (List.filterMap id) =
      ((included v (before ++ .obj node :: after)).mapM (roleOf v)).map (List.filterMap id) := by
  have hrole := roleOf_of_sameBut hv h
  rw [included_append, included_append, included_obj, included_obj, hv.excluded h]
  split
  · rfl
  · rw [List.singleton_append, List.singleton_append, List.mapM_append, List.mapM_append,
      List.mapM_cons, List.mapM_cons, hrole]

end

/-! ## The walk -/

/-- Values in front of a list of children are walked first. -/
theorem exists_placedAmong_append {before rest : List Json} {start : Nat}
    {qs : List (Place × Node)} (hq : PlacedAmong d (start + before.length) rest qs) :
    ∃ ps, PlacedAmong d start (before ++ rest) (ps ++ qs) ∧
      ps.map Prod.snd = before.flatMap (visited d.vocabulary) ∧
      ∀ p ∈ ps, ∃ i, i < start + before.length ∧ ∃ place, p.1 = i :: place := by
  induction before generalizing start with
  | nil => exact ⟨[], hq, rfl, nofun⟩
  | cons item before ih =>
    rw [List.length_cons, Nat.add_comm before.length, ← Nat.add_assoc] at hq
    obtain ⟨ps, hps, hnodes, hbound⟩ := ih hq
    obtain ⟨first, hfirst⟩ := exists_places d item
    refine ⟨first.map (fun p => (start :: p.1, p.2)) ++ ps, ?_, ?_, ?_⟩
    · rw [List.append_assoc]
      exact PlacedAmong.cons hfirst hps
    · rw [List.map_append, hnodes, List.map_map, List.flatMap_cons, ← hfirst.nodes]
      rfl
    · intro p hp
      rw [List.length_cons]
      rcases List.mem_append.1 hp with hp | hp
      · obtain ⟨p, -, rfl⟩ := List.mem_map.1 hp
        exact ⟨start, by omega, p.1, rfl⟩
      · obtain ⟨i, hi, place, hplace⟩ := hbound p hp
        exact ⟨i, by omega, place, hplace⟩

/-- The walk through a node, around the walk through one of its children. -/
theorem exists_placed_around {node : Node} {before after : List Json} {item : Json}
    {ps : List (Place × Node)} (hex : ¬ Excludes d node)
    (hitems : Json.memberOrNull d.vocabulary.childKey node = .arr (before ++ item :: after))
    (hps : Placed d item ps) : ∃ front back : List (Place × Node),
      Placed d (.obj node) (([], node) :: (front ++
        (ps.map (fun p => (before.length :: p.1, p.2)) ++ back))) ∧
      front.map Prod.snd = before.flatMap (visited d.vocabulary) ∧
      back.map Prod.snd = after.flatMap (visited d.vocabulary) ∧
      ∀ p ∈ front ++ back, ∀ place, ¬ before.length :: place <+: p.1 := by
  obtain ⟨back, hback⟩ : ∃ back, PlacedAmong d (before.length + 1) after back :=
    exists_placedAmong (fun item _ => exists_places d item) _
  have hrest := PlacedAmong.cons hps hback
  rw [← Nat.zero_add before.length] at hrest
  obtain ⟨front, hfront, hnodes, hbound⟩ := exists_placedAmong_append hrest
  rw [Nat.zero_add] at hfront
  have hother : ∀ p ∈ front ++ back, ∃ i, i ≠ before.length ∧ ∃ rest, p.1 = i :: rest := by
    intro p hp
    rcases List.mem_append.1 hp with hp | hp
    · obtain ⟨i, hi, rest, hplace⟩ := hbound p hp
      exact ⟨i, by omega, rest, hplace⟩
    · obtain ⟨i, item, rest, -, hplace, -⟩ := (hback.complete p.1 p.2).1 hp
      exact ⟨_, by omega, rest, hplace⟩
  refine ⟨front, back, placed_included hex ?_, hnodes, hback.nodes, fun p hp place hprefix => ?_⟩
  · rw [childValues, hitems]
    exact hfront
  · obtain ⟨i, hi, rest, hplace⟩ := hother p hp
    rw [hplace, List.cons_prefix_cons] at hprefix
    exact hi hprefix.1.symm

theorem Removed.sameBut (h : Removed d gone place dump dump') : ∃ node node',
    dump = .obj node ∧ dump' = .obj node' ∧ SameBut d.vocabulary.childKey node' node := by
  cases h with
  | item _ _ hsame => exact ⟨_, _, rfl, rfl, hsame⟩
  | deeper _ _ hsame _ => exact ⟨_, _, rfl, rfl, hsame⟩

theorem excludes_iff_of_sameBut {node node' : Node}
    (h : SameBut d.vocabulary.childKey node' node) : Excludes d node' ↔ Excludes d node := by
  rw [← excluded_iff, (shallow_vocabulary d).excluded h, excluded_iff]

/-- Nothing at or below an excluded node is walked. -/
theorem split_excluded {node node' : Node} (hex : Excludes d node)
    (h : SameBut d.vocabulary.childKey node' node) :
    Split d place (.obj node) (.obj node') [] [] [] [] where
  placed := placed_excluded hex
  within := nofun
  beside := nofun
  left := visited_excluded _ (excluded_iff.2 ((excludes_iff_of_sameBut h).2 hex))
  leaves := .nil

section
variable {node node' : Node} {before after : List Json} (hex : ¬ Excludes d node)
  (hsame : SameBut d.vocabulary.childKey node' node)
  (hmembers : membersOf d.vocabulary node' = membersOf d.vocabulary node)
include hex hsame

/-- What is left of a node that is walked is walked too. -/
theorem visited_left {items : List Json}
    (hitems : Json.memberOrNull d.vocabulary.childKey node' = .arr items) :
    visited d.vocabulary (.obj node') = node' :: items.flatMap (visited d.vocabulary) := by
  have hex' : ¬ Excludes d node' := fun h => hex ((excludes_iff_of_sameBut hsame).1 h)
  rw [visited_included _ (excluded_eq_false_iff.2 hex'), childValues, hitems]

include hmembers

/-- The walk splits at a child, … -/
theorem exists_split_item {item : Json}
    (hitems : Json.memberOrNull d.vocabulary.childKey node = .arr (before ++ item :: after))
    (hitems' : Json.memberOrNull d.vocabulary.childKey node' = .arr (before ++ after)) :
    ∃ front between back front',
      Split d [before.length] (.obj node) (.obj node') front between back front' := by
  obtain ⟨ps, hps⟩ := exists_places d item
  obtain ⟨front, back, hplaced, hfront, hback, hbeside⟩ := exists_placed_around hex hitems hps
  refine ⟨([], node) :: front, ps.map fun p => (before.length :: p.1, p.2), back,
    node' :: front.map Prod.snd, ?_, ?_, ?_, ?_, ?_⟩
  · rwa [List.cons_append, List.cons_append, List.append_assoc]
  · intro p hp
    obtain ⟨p, -, rfl⟩ := List.mem_map.1 hp
    exact ⟨p.1, rfl⟩
  · exact List.forall_mem_cons.2 ⟨nofun, fun p hp => hbeside p hp []⟩
  · rw [visited_left hex hsame hitems', List.flatMap_append, ← hfront, ← hback]
    rfl
  · exact .cons ⟨hsame, hmembers⟩ (List.forall₂_same.2 fun n _ => .refl _ n)

/-- … and where the walk through a child splits. -/
theorem Split.exists_deeper {item item' : Json} {front between back : List (Place × Node)}
    {front' : List Node} (h : Split d place item item' front between back front')
    (hitems : Json.memberOrNull d.vocabulary.childKey node = .arr (before ++ item :: after))
    (hitems' : Json.memberOrNull d.vocabulary.childKey node' = .arr (before ++ item' :: after)) :
    ∃ front between back front',
      Split d (before.length :: place) (.obj node) (.obj node') front between back front' := by
  obtain ⟨before', after', hplaced, hbefore, hafter, hbeside⟩ :=
    exists_placed_around hex hitems h.placed
  let below (p : Place × Node) : Place × Node := (before.length :: p.1, p.2)
  have hsnd (ps : List (Place × Node)) : (ps.map below).map Prod.snd = ps.map Prod.snd :=
    List.map_map
  refine ⟨([], node) :: (before' ++ front.map below), between.map below,
    back.map below ++ after', node' :: (before'.map Prod.snd ++ front'), ?_, ?_, ?_, ?_, ?_⟩
  · simpa only [List.map_append, List.append_assoc, List.cons_append] using hplaced
  · intro p hp
    obtain ⟨q, hq, rfl⟩ := List.mem_map.1 hp
    exact List.cons_prefix_cons.2 ⟨rfl, h.within q hq⟩
  · have hinner : ∀ p ∈ front.map below ++ back.map below, ¬ before.length :: place <+: p.1 := by
      rw [← List.map_append]
      intro p hp hprefix
      obtain ⟨q, hq, rfl⟩ := List.mem_map.1 hp
      exact h.beside q hq (List.cons_prefix_cons.1 hprefix).2
    intro p hp
    simp only [List.cons_append, List.mem_cons, List.mem_append] at hp
    rcases hp with rfl | (hp | hp) | hp | hp
    · nofun
    · exact hbeside p (List.mem_append_left _ hp) place
    · exact hinner p (List.mem_append_left _ hp)
    · exact hinner p (List.mem_append_right _ hp)
    · exact hbeside p (List.mem_append_right _ hp) place
  · rw [visited_left hex hsame hitems', List.flatMap_append, List.flatMap_cons, h.left, ← hbefore,
      ← hafter, List.map_append, hsnd]
    simp only [List.cons_append, List.append_assoc]
  · rw [List.map_cons, List.map_append, hsnd]
    refine .cons ⟨hsame, hmembers⟩ (List.rel_append ?_ h.leaves)
    exact List.forall₂_same.2 fun n _ => .refl _ n

end

/-- **A value without a name is walked on its own:** what is left of a dump without it is walked
    like the dump without the nodes at or below its place. -/
theorem exists_split {cat : Node} (hname : d.vocabulary.name cat = none)
    (h : Removed d (.obj cat) place dump dump') :
    ∃ front between back front', Split d place dump dump' front between back front' := by
  induction h with
  | @item node node' before after hitems hitems' hsame =>
    by_cases hex : Excludes d node
    · exact ⟨[], [], [], [], split_excluded hex hsame⟩
    · exact exists_split_item hex hsame
        (membersOf_congr hitems hitems' (roles_without hname before after)) hitems hitems'
  | @deeper node node' before after item item' place hitems hitems' hsame hbelow ih =>
    by_cases hex : Excludes d node
    · exact ⟨[], [], [], [], split_excluded hex hsame⟩
    · obtain ⟨child, child', rfl, rfl, hchild⟩ := hbelow.sameBut
      obtain ⟨front, between, back, front', hsplit⟩ := ih
      exact hsplit.exists_deeper hex hsame (membersOf_congr hitems hitems'
        (roles_replaced (shallow_vocabulary d) hchild before after)) hitems hitems'

/-! ## Readings -/

section
variable {v : Vocabulary} {unit : String} {nodes : List Node} {rs : List Reading} {name : String}

theorem readings_append (xs ys : List Node) : readings v unit (xs ++ ys) = do
    let front ← readings v unit xs
    let back ← readings v unit ys
    return front ++ back := by
  rw [readings, List.mapM_append, readings, readings]
  cases xs.mapM (readingOf v unit) with
  | error fault => rfl
  | ok os =>
    cases ys.mapM (readingOf v unit) with
    | error fault => rfl
    | ok os' => exact congrArg Except.ok List.filterMap_append

theorem readings_of_leaves (hv : v.Shallow) {nodes' : List Node}
    (h : List.Forall₂ (Leaves v) nodes' nodes) : readings v unit nodes' = readings v unit nodes := by
  have hmapM : nodes'.mapM (readingOf v unit) = nodes.mapM (readingOf v unit) := by
    induction h with
    | nil => rfl
    | cons hleaves _ ih =>
      rw [List.mapM_cons, List.mapM_cons, ih,
        readingOf_of_sameBut hv hleaves.sameBut hleaves.members]
  rw [readings, hmapM, readings]

theorem exists_of_readings (h : readings v unit nodes = .ok rs) : ∃ os,
    List.Forall₂ (fun node o => declaration v unit node = .ok o) nodes os ∧
      rs = (os.filterMap id).map (Declaration.reading v) := by
  rw [readings_eq] at h
  obtain ⟨declared, hdeclared, rfl⟩ := map_eq_ok.1 h
  obtain ⟨os, hos, rfl⟩ := map_eq_ok.1 hdeclared
  exact ⟨os, mapM_eq_ok.1 hos, rfl⟩

/-- Nodes that declare nothing are not seen. -/
theorem readings_eq_nil (h : ∀ node ∈ nodes, declaration v unit node = .ok none) :
    readings v unit nodes = .ok [] := by
  have hmapM : nodes.mapM (declaration v unit) = .ok (nodes.map fun _ => none) := by
    rw [mapM_eq_ok, List.forall₂_map_right_iff, List.forall₂_same]
    exact h
  rw [readings_eq, hmapM]
  simp

theorem declaration_eq_none {node : Node} (htag : ∃ tag, v.tag node = .ok tag)
    (hnone : ∀ name, ¬ Tagged v node name) : declaration v unit node = .ok none := by
  obtain ⟨tag?, htag⟩ := htag
  rw [declaration, htag, ok_bind]
  cases tag? with
  | none => rfl
  | some tag =>
    cases hname : v.name node with
    | none => rfl
    | some name =>
      have hempty : tag = "" := by
        by_contra hne
        exact hnone name ⟨hname, tag, htag, hne⟩
      exact if_pos hempty

/-- Nodes of no kind make no symbols. -/
theorem symbols_readings_eq_nil (hv : v.Lawful) (h : readings v unit nodes = .ok rs)
    (hnone : ∀ node ∈ nodes, ∀ name kind, ¬ DeclaresKind v node name kind) :
    rs.filterMap Reading.symbol = [] := by
  obtain ⟨os, hos, rfl⟩ := exists_of_readings h
  rw [List.filterMap_eq_nil_iff]
  intro r hr
  obtain ⟨dec, hdec, rfl⟩ := List.mem_map.1 hr
  obtain ⟨_, ho, rfl⟩ := List.mem_filterMap.1 hdec
  obtain ⟨node, hnode, hread⟩ := exists_left_of_mem hos ho
  obtain ⟨-, hname, tag, htag, hne, ⟨-, hsymbol⟩ | ⟨kind, s, hkind, -, -⟩⟩ :=
    declaration_eq_some hread
  · exact hsymbol
  · exact absurd ⟨hname, hv.name_ne hname, tag, htag, hne, hkind⟩ (hnone node hnode _ kind)

/-- A name is read if a node has it and a tag. -/
theorem isSome_membersNamed_iff (h : readings v unit nodes = .ok rs) :
    (membersNamed rs name).isSome ↔ ∃ node ∈ nodes, Tagged v node name := by
  obtain ⟨os, hos, rfl⟩ := exists_of_readings h
  rw [membersNamed_map, Option.isSome_map, List.find?_isSome, declared_eq hos]
  simp only [decide_eq_true_eq]
  constructor
  · rintro ⟨dec, hdec, hname⟩
    obtain ⟨node, hnode, hdec⟩ := List.mem_filterMap.1 hdec
    obtain ⟨o, -, ho⟩ := exists_right_of_mem hos hnode
    refine ⟨node, hnode, (any_declarationAt?_iff ⟨o, ho⟩).1 ?_⟩
    rw [hdec]
    exact decide_eq_true hname
  · rintro ⟨node, hnode, htagged⟩
    obtain ⟨o, -, ho⟩ := exists_right_of_mem hos hnode
    obtain ⟨dec, hdec, hname⟩ :=
      (Option.any_eq_true _ _).1 ((any_declarationAt?_iff ⟨o, ho⟩).2 htagged)
    exact ⟨dec, List.mem_filterMap.2 ⟨node, hnode, hdec⟩, of_decide_eq_true hname⟩

end

/-! ## Owners -/

section
variable {unit name : String} {rs : List Reading} {data : UnitData}

/-- **The members of a type are those of its owner.** -/
theorem membersNamed_eq_some_iff {members : Except Fault MemberSet}
    (h : readings d.vocabulary unit (visited d.vocabulary dump) = .ok rs) :
    ((∃ s ∈ typesOf rs, s.name = .str name) ∧ membersNamed rs name = some members) ↔
      ∃ place node, OwnsMembers d dump place node name ∧
        membersOf d.vocabulary node = members := by
  obtain ⟨os, hos, rfl⟩ := exists_of_readings h
  have hdeclared : declarations d.vocabulary unit dump = .ok (os.filterMap id) := by
    rw [declarations, mapM_eq_ok.2 hos]
    rfl
  let table := SymbolTable.ofSymbols ((os.filterMap id).filterMap Declaration.symbol)
  have howner (node : Node) : (name, node) ∈ memberOwners (os.filterMap id) table ↔
      ∃ place, OwnsMembers d dump place node name := mem_memberOwners_iff hdeclared
  simp only [mem_memberOwners] at howner
  have htypes : typesOf ((os.filterMap id).map (Declaration.reading d.vocabulary)) =
      table.inKinds SymbolKind.types := by
    rw [typesOf, List.filterMap_map]
    rfl
  rw [htypes, membersNamed_map, Option.map_eq_some_iff]
  constructor
  · rintro ⟨htype, dec, hdec, hmembers⟩
    obtain ⟨place, howns⟩ := (howner dec.node).1 ⟨htype, by rw [hdec]; rfl⟩
    exact ⟨place, dec.node, howns, hmembers⟩
  · rintro ⟨place, node, howns, hmembers⟩
    obtain ⟨htype, hnode⟩ := (howner node).2 ⟨place, howns⟩
    obtain ⟨dec, hdec, rfl⟩ := Option.map_eq_some_iff.1 hnode
    exact ⟨htype, dec, hdec, hmembers⟩

/-- **The table of members holds the members of the owners.** -/
theorem mem_members_iff {set : MemberSet} (h : extract d unit dump = .ok data) :
    (name, set) ∈ data.members.entries ↔ ∃ place node, OwnsMembers d dump place node name ∧
      membersOf d.vocabulary node = .ok set := by
  obtain ⟨rs, hread, -⟩ := bind_eq_ok.1 ((extract_eq_assemble d unit dump).symm.trans h)
  obtain ⟨declared, sets, hdeclared, hsets, rfl⟩ := exists_of_extract h
  have hmem {set : MemberSet} (hset : (name, set) ∈ sets) : ∃ place node,
      OwnsMembers d dump place node name ∧ membersOf d.vocabulary node = .ok set := by
    obtain ⟨⟨_, node⟩, howner, rfl, hmembers⟩ := exists_left_of_mem hsets hset
    obtain ⟨place, howns⟩ := (mem_memberOwners_iff hdeclared).1 howner
    exact ⟨place, node, howns, hmembers⟩
  constructor
  · exact fun hset => hmem (Table.mem_of_mem_ofList hset)
  · rintro ⟨place, node, howns, hmembers⟩
    -- the name may be that of several types, which have one owner
    obtain ⟨set', hset', hname, -⟩ :=
      exists_right_of_mem hsets ((mem_memberOwners_iff hdeclared).2 ⟨place, howns⟩)
    have hkey : name ∈ (Table.ofList sets).keys := by
      rw [Table.keys_ofList, List.mem_eraseDups]
      exact List.mem_map.2 ⟨set', hset', hname⟩
    obtain ⟨⟨_, last⟩, hlast, rfl⟩ := List.mem_map.1 hkey
    have hsame := ((membersNamed_eq_some_iff hread).2 (hmem (Table.mem_of_mem_ofList hlast))).2
    have hsome := ((membersNamed_eq_some_iff hread).2 ⟨place, node, howns, hmembers⟩).2
    obtain rfl : last = set := Except.ok.inj (Option.some.inj (hsame.symm.trans hsome))
    exact hlast

end

end DeclGraph.Ast
