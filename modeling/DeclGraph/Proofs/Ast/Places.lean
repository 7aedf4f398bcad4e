/-
  The places at which the nodes of a dump stand.

  A place is the way down from the root: the positions of the values on the way
  in the lists of children that hold them.  Places are ordered like the entries
  of a dictionary, which is the order of the nodes in the document.

  Main result:

  * `exists_places`: the walk through a dump meets every node that stands in it
    once, in the order of the places.
-/
import DeclGraph.Ast.Extract
import DeclGraph.Proofs.Ast.Vocabulary
import DeclGraph.Proofs.Ast.Walk
import DeclGraph.Proofs.Text.Basic

namespace DeclGraph.Ast

/-! ## Excluded nodes -/

/-- Whether the compiler made a Swift node: it says so, or its name begins with
    a dollar sign. -/
def Swift.Synthesized (node : Node) : Prop :=
  (Json.memberOrNull "key.is_implicit" node).truthy ∨
    ∃ rest : String, Json.memberOrNull "key.name" node = .str ("$" ++ rest)

/-- The blocks of the location of a node. -/
inductive ObjC.LocatedBy (node : Node) : Node → Prop
  | location {block : Node} : Json.memberOrNull "loc" node = .obj block → LocatedBy node block
  /-- the place where a macro is written, or where it is used -/
  | ofMacro {location block : Node} {key : String} :
      Json.memberOrNull "loc" node = .obj location → key ∈ ["spellingLoc", "expansionLoc"] →
      Json.memberOrNull key location = .obj block → LocatedBy node block

/-- Whether a node of a syntax tree was made implicitly or comes from an included
    file. -/
def ObjC.Foreign (node : Node) : Prop :=
  (Json.memberOrNull "isImplicit" node).truthy ∨
    ∃ block, LocatedBy node block ∧ "includedFrom" ∈ block.map Prod.fst

/-- Whether a node was not written in the unit. -/
def Excludes : Dialect → Node → Prop
  | .swift => Swift.Synthesized
  | .objc => ObjC.Foreign

theorem Swift.isSynthesized_iff {node : Node} : isSynthesized node ↔ Synthesized node := by
  rw [isSynthesized, Synthesized, Bool.or_eq_true]
  refine or_congr_right ?_
  cases Json.memberOrNull "key.name" node with
  | str name => simp only [Json.text?, Text.startsWith_iff, Json.str.injEq]
  | _ => simp [Json.text?]

theorem ObjC.mem_locationBlocks {node block : Node} :
    block ∈ locationBlocks (Json.memberOrNull "loc" node) ↔ LocatedBy node block := by
  constructor
  · intro h
    unfold locationBlocks at h
    split at h
    · rename_i location hloc
      rcases List.mem_cons.1 h with rfl | h
      · exact .location hloc
      · obtain ⟨key, hkey, hblock⟩ := List.mem_filterMap.1 h
        exact .ofMacro hloc hkey (node?_eq_some.1 hblock)
    · cases h
  · rintro (hloc | ⟨hloc, hkey, hblock⟩)
    · rw [hloc]; exact List.mem_cons_self
    · rw [hloc]
      exact List.mem_cons_of_mem _ (List.mem_filterMap.2 ⟨_, hkey, node?_eq_some.2 hblock⟩)

theorem ObjC.isForeign_iff {node : Node} : isForeign node ↔ Foreign node := by
  simp only [isForeign, Foreign, Bool.or_eq_true, List.any_eq_true, mem_locationBlocks,
    Json.isSome_member?]

theorem excluded_iff {d : Dialect} {node : Node} :
    d.vocabulary.excluded node ↔ Excludes d node := by
  cases d
  · exact Swift.isSynthesized_iff
  · exact ObjC.isForeign_iff

theorem excluded_eq_false_iff {d : Dialect} {node : Node} :
    d.vocabulary.excluded node = false ↔ ¬ Excludes d node := by
  rw [← excluded_iff, Bool.not_eq_true]

/-! ## Places -/

/-- The positions on the way down from the root. -/
abbrev Place := List Nat

/-- A node stands at a place of a dump if only lists of children lead to it, and
    neither the node nor a node above it is excluded. -/
inductive StandsAt (d : Dialect) : Json → Place → Node → Prop
  | root {node : Node} : ¬ Excludes d node → StandsAt d (.obj node) [] node
  | child {above node : Node} {items : List Json} {i : Nat} {item : Json} {place : Place} :
      ¬ Excludes d above → Json.memberOrNull d.vocabulary.childKey above = .arr items →
      items[i]? = some item → StandsAt d item place node → StandsAt d (.obj above) (i :: place) node

/-- What the walk through a dump meets, with the places. -/
structure Placed (d : Dialect) (dump : Json) (ps : List (Place × Node)) : Prop where
  nodes : ps.map Prod.snd = visited d.vocabulary dump
  ascending : (ps.map Prod.fst).Pairwise (· < ·)
  complete : ∀ place node, (place, node) ∈ ps ↔ StandsAt d dump place node

/-- What the walk through the children of one node meets, with the places, if the
    first of them is the child of number `start`. -/
structure PlacedAmong (d : Dialect) (start : Nat) (items : List Json) (ps : List (Place × Node)) :
    Prop where
  nodes : ps.map Prod.snd = items.flatMap (visited d.vocabulary)
  ascending : (ps.map Prod.fst).Pairwise (· < ·)
  complete : ∀ place node, (place, node) ∈ ps ↔
    ∃ i item rest, items[i]? = some item ∧ place = (start + i) :: rest ∧ StandsAt d item rest node

theorem placedAmong_nil (d : Dialect) (start : Nat) : PlacedAmong d start [] [] :=
  ⟨rfl, List.Pairwise.nil, fun place node => by simp⟩

theorem PlacedAmong.cons {d : Dialect} {start : Nat} {item : Json} {items : List Json}
    {ps qs : List (Place × Node)} (hp : Placed d item ps)
    (hq : PlacedAmong d (start + 1) items qs) :
    PlacedAmong d start (item :: items) (ps.map (fun p => (start :: p.1, p.2)) ++ qs) := by
  refine ⟨?_, ?_, fun place node => ?_⟩
  · rw [List.map_append, List.map_map, hq.nodes, List.flatMap_cons, ← hp.nodes]
    rfl
  · rw [List.map_append, List.pairwise_append]
    refine ⟨?_, hq.ascending, ?_⟩
    · have := hp.ascending.map (start :: ·) fun _ _ h => List.cons_lt_cons_iff.2 (Or.inr ⟨rfl, h⟩)
      rwa [List.map_map] at this ⊢
    · -- the places below the first child begin with a smaller number than all others
      intro a ha b hb
      obtain ⟨p, -, rfl⟩ := List.mem_map.1 (List.map_map ▸ ha)
      obtain ⟨q, hq', rfl⟩ := List.mem_map.1 hb
      obtain ⟨i, _, rest, -, hplace, -⟩ := (hq.complete q.1 q.2).1 hq'
      rw [hplace]
      exact List.cons_lt_cons_iff.2 (Or.inl (by omega))
  · rw [List.mem_append, hq.complete]
    constructor
    · rintro (h | ⟨i, x, rest, hx, rfl, hstands⟩)
      · obtain ⟨⟨rest, node'⟩, hmem, heq⟩ := List.mem_map.1 h
        obtain ⟨rfl, rfl⟩ := Prod.mk.inj heq
        exact ⟨0, item, rest, rfl, rfl, (hp.complete _ _).1 hmem⟩
      · exact ⟨i + 1, x, rest, hx, by rw [Nat.add_right_comm, Nat.add_assoc], hstands⟩
    · rintro ⟨i, x, rest, hx, rfl, hstands⟩
      cases i with
      | zero =>
        cases hx
        exact Or.inl (List.mem_map.2 ⟨(rest, node), (hp.complete _ _).2 hstands, rfl⟩)
      | succ i => exact Or.inr ⟨i, x, rest, hx, by rw [Nat.add_right_comm, Nat.add_assoc], hstands⟩

theorem exists_placedAmong {d : Dialect} {items : List Json}
    (h : ∀ item ∈ items, ∃ ps, Placed d item ps) (start : Nat) :
    ∃ ps, PlacedAmong d start items ps := by
  induction items generalizing start with
  | nil => exact ⟨[], placedAmong_nil d start⟩
  | cons item items ih =>
    obtain ⟨ps, hp⟩ := h item List.mem_cons_self
    obtain ⟨qs, hq⟩ := ih (fun x hx => h x (List.mem_cons_of_mem _ hx)) (start + 1)
    exact ⟨_, hq.cons hp⟩

theorem standsAt_obj_iff {d : Dialect} {above node : Node} {place : Place} :
    StandsAt d (.obj above) place node ↔ ¬ Excludes d above ∧
      ((place = [] ∧ node = above) ∨ ∃ i item rest,
        (childValues d.vocabulary above)[i]? = some item ∧ place = i :: rest ∧
        StandsAt d item rest node) := by
  constructor
  · rintro (hex | ⟨hex, hitems, hitem, hstands⟩)
    · exact ⟨hex, Or.inl ⟨rfl, rfl⟩⟩
    · exact ⟨hex, Or.inr ⟨_, _, _, by rw [childValues, hitems]; exact hitem, rfl, hstands⟩⟩
  · rintro ⟨hex, ⟨rfl, rfl⟩ | ⟨i, item, rest, hitem, rfl, hstands⟩⟩
    · exact .root hex
    · unfold childValues at hitem
      split at hitem
      · rename_i items hitems
        exact .child hex hitems hitem hstands
      · cases hitem

theorem placed_excluded {d : Dialect} {node : Node} (h : Excludes d node) :
    Placed d (.obj node) [] :=
  ⟨(visited_excluded _ (excluded_iff.2 h)).symm, List.Pairwise.nil, fun place n => by
    rw [standsAt_obj_iff]
    exact ⟨nofun, fun hs => absurd h hs.1⟩⟩

theorem placed_included {d : Dialect} {node : Node} {ps : List (Place × Node)}
    (h : ¬ Excludes d node) (hp : PlacedAmong d 0 (childValues d.vocabulary node) ps) :
    Placed d (.obj node) (([], node) :: ps) := by
  refine ⟨?_, ?_, fun place n => ?_⟩
  · rw [List.map_cons, hp.nodes, visited_included _ (excluded_eq_false_iff.2 h)]
  · rw [List.map_cons, List.pairwise_cons]
    refine ⟨fun place hplace => ?_, hp.ascending⟩
    obtain ⟨q, hq, rfl⟩ := List.mem_map.1 hplace
    obtain ⟨i, _, rest, -, hplace, -⟩ := (hp.complete q.1 q.2).1 hq
    rw [hplace]
    exact List.nil_lt_cons _ _
  · rw [List.mem_cons, hp.complete, standsAt_obj_iff, and_iff_right h, Prod.mk.injEq]
    simp only [Nat.zero_add]

/-- **The walk meets every node that stands in a dump once, in the order of the
    places.** -/
theorem exists_places (d : Dialect) (dump : Json) : ∃ ps, Placed d dump ps := by
  induction dump using dump_induction d.vocabulary with
  | node node ih =>
    by_cases h : Excludes d node
    · exact ⟨[], placed_excluded h⟩
    · obtain ⟨ps, hp⟩ := exists_placedAmong ih 0
      exact ⟨_, placed_included h hp⟩
  | other item h =>
    refine ⟨[], (visited_of_not_node _ h).symm, List.Pairwise.nil, fun place n => ?_⟩
    constructor
    · nofun
    · intro hs
      cases hs <;> exact absurd rfl (h _)

/-! ## Nodes that stand in a dump -/

variable {d : Dialect} {dump : Json}

theorem StandsAt.mem_visited {place : Place} {node : Node} (h : StandsAt d dump place node) :
    node ∈ visited d.vocabulary dump := by
  obtain ⟨ps, hps⟩ := exists_places d dump
  exact hps.nodes ▸ List.mem_map_of_mem ((hps.complete place node).2 h)

theorem exists_standsAt {node : Node} (h : node ∈ visited d.vocabulary dump) :
    ∃ place, StandsAt d dump place node := by
  obtain ⟨ps, hps⟩ := exists_places d dump
  rw [← hps.nodes] at h
  obtain ⟨⟨place, node⟩, hp, rfl⟩ := List.mem_map.1 h
  exact ⟨place, (hps.complete place node).1 hp⟩

/-- The children of a node that stands in a dump stand in it too. -/
theorem StandsAt.exists_of_included {place : Place} {node child : Node}
    (h : StandsAt d dump place node)
    (hchild : child ∈ included d.vocabulary (childValues d.vocabulary node)) :
    ∃ place', StandsAt d dump place' child := by
  induction h with
  | root hex =>
    obtain ⟨hmem, hincluded⟩ := List.mem_filter.1 hchild
    obtain ⟨item, hitem, hnode⟩ := List.mem_filterMap.1 hmem
    obtain rfl := node?_eq_some.1 hnode
    obtain ⟨i, hi⟩ := List.mem_iff_getElem?.1 hitem
    rw [Bool.not_eq_true', excluded_eq_false_iff] at hincluded
    exact ⟨[i], standsAt_obj_iff.2 ⟨hex, Or.inr ⟨i, _, [], hi, rfl, .root hincluded⟩⟩⟩
  | child hex hitems hitem _ ih =>
    obtain ⟨place', h⟩ := ih hchild
    exact ⟨_, .child hex hitems hitem h⟩

end DeclGraph.Ast
