/-
  What the parts of a node can be, whatever the dump holds.
-/
import DeclGraph.Ast.ObjC
import DeclGraph.Ast.Swift
import DeclGraph.Proofs.Except
import DeclGraph.Proofs.Json.Basic

namespace DeclGraph

namespace Ast

theorem node?_eq_some {j : Json} {node : Node} : node? j = some node ↔ j = .obj node := by
  cases j <;> simp [node?]

/-- What holds of the parts of every node. -/
structure Vocabulary.Lawful (v : Vocabulary) : Prop where
  name_ne : ∀ {node name}, v.name node = some name → name ≠ ""
  /-- A node with a tag has a node kind too. -/
  rawKind : ∀ {node tag}, v.tag node = .ok (some tag) → tag ≠ "" →
    ∃ raw, v.rawKind node = some raw ∧ raw ≠ ""
  /-- Places are `null`, integers or truth values, … -/
  offset : ∀ {node place}, v.range node = .ok place →
    place.1 = .null ∨ place.1.intOrBool?.isSome
  /-- … and lengths are `null` or integers. -/
  length : ∀ {node place}, v.range node = .ok place → place.2 = .null ∨ ∃ n, place.2 = .int n
  supertypes_ne : ∀ {node names}, v.supertypes node = .ok names → ∀ name ∈ names, name ≠ ""

/-! ## Swift -/

theorem Swift.nameOf_ne {node : Node} {name : String} (h : nameOf node = some name) : name ≠ "" :=
  (Json.nonEmptyText?_eq_some.1 h).2

theorem Swift.intOrNull_spec (key : String) (node : Node) :
    intOrNull key node = .null ∨ ∃ n, intOrNull key node = .int n := by
  unfold intOrNull
  split
  · exact Or.inr ⟨_, rfl⟩
  · exact Or.inl rfl

theorem Swift.lawful : vocabulary.Lawful where
  name_ne := nameOf_ne
  rawKind h hne := ⟨_, Except.ok.inj h, hne⟩
  offset := by
    rintro node place ⟨⟩
    rcases intOrNull_spec "key.offset" node with h | ⟨n, h⟩
    · exact Or.inl h
    · exact Or.inr (by rw [h]; rfl)
  length := by
    rintro node place ⟨⟩
    exact intOrNull_spec "key.length" node
  supertypes_ne := by
    rintro node names ⟨⟩ name hname
    unfold supertypes at hname
    split at hname
    · obtain ⟨entry, -, hentry⟩ := List.mem_filterMap.1 hname
      obtain ⟨n, -, hn⟩ := Option.bind_eq_some_iff.1 hentry
      exact nameOf_ne hn
    · cases hname

/-! ## Objective-C and C -/

theorem ObjC.refName?_ne {j : Json} {name : String} (h : refName? j = some name) : name ≠ "" := by
  unfold refName? at h
  split at h
  · split at h
    · cases h
    · exact (Json.nonEmptyText?_eq_some.1 h).2
  · split at h
    · cases h
    · exact (Json.nonEmptyText?_eq_some.1 h).2
  · cases h

theorem ObjC.kindOf_of_tagOf {node : Node} {tag : String} (h : tagOf node = .ok (some tag))
    (hne : tag ≠ "") : ∃ kind, kindOf node = some kind ∧ kind ≠ "" := by
  unfold tagOf at h
  cases hk : kindOf node with
  | none => rw [hk] at h; cases h
  | some kind =>
    refine ⟨kind, rfl, ?_⟩
    -- an empty kind is neither a record nor in the table, so it would be its own tag
    rintro rfl
    rw [hk] at h
    exact hne (Option.some.inj (Except.ok.inj h)).symm

theorem ObjC.boundsOf?_eq_some {node : Node} {bounds : Json × Int × Int × Node} :
    boundsOf? node = some bounds ↔ ∃ range first last start past,
      Json.memberOrNull "range" node = .obj range ∧ Json.memberOrNull "begin" range = .obj first ∧
      Json.memberOrNull "end" range = .obj last ∧
      (Json.memberOrNull "offset" first).intOrBool? = some start ∧
      (Json.memberOrNull "offset" last).intOrBool? = some past ∧
      bounds = (Json.memberOrNull "offset" first, start, past, last) := by
  constructor
  · intro h
    obtain ⟨range, hrange, h⟩ := Option.bind_eq_some_iff.1 h
    obtain ⟨first, hfirst, h⟩ := Option.bind_eq_some_iff.1 h
    obtain ⟨last, hlast, h⟩ := Option.bind_eq_some_iff.1 h
    obtain ⟨start, hstart, h⟩ := Option.bind_eq_some_iff.1 h
    obtain ⟨past, hpast, h⟩ := Option.bind_eq_some_iff.1 h
    exact ⟨range, first, last, start, past, node?_eq_some.1 hrange, node?_eq_some.1 hfirst,
      node?_eq_some.1 hlast, hstart, hpast, (Option.some.inj h).symm⟩
  · rintro ⟨range, first, last, start, past, hrange, hfirst, hlast, hstart, hpast, rfl⟩
    simp only [boundsOf?, hrange, hfirst, hlast, node?, hstart, hpast, Option.bind_eq_bind,
      Option.bind_some]
    rfl

theorem ObjC.placeOf_spec (node : Node) :
    placeOf node = .null ∨ (placeOf node).intOrBool?.isSome := by
  unfold placeOf
  dsimp only
  split
  · rename_i hplace
    exact Or.inr hplace
  · exact Or.inl rfl

theorem ObjC.rangeOf_spec {node : Node} {place : Json × Json} (h : rangeOf node = .ok place) :
    (place.1 = .null ∨ place.1.intOrBool?.isSome) ∧ (place.2 = .null ∨ ∃ n, place.2 = .int n) := by
  unfold rangeOf at h
  split at h
  · rename_i hbounds
    obtain ⟨width, -, h⟩ := bind_eq_ok.1 h
    cases h
    obtain ⟨_, _, _, _, _, -, -, -, hstart, -, heq⟩ := boundsOf?_eq_some.1 hbounds
    cases heq
    exact ⟨Or.inr (by rw [hstart]; rfl), Or.inr ⟨_, rfl⟩⟩
  · cases h
    exact ⟨placeOf_spec node, Or.inl rfl⟩

theorem ObjC.supertypes_ne {node : Node} {names : List String} (h : supertypes node = .ok names) :
    ∀ name ∈ names, name ≠ "" := by
  obtain ⟨protocols, -, h⟩ := bind_eq_ok.1 h
  obtain ⟨bases, -, h⟩ := bind_eq_ok.1 h
  obtain rfl := Except.ok.inj h
  intro name hname
  rcases List.mem_append.1 hname with hname | hname
  · rcases List.mem_append.1 hname with hname | hname
    · exact refName?_ne (Option.mem_toList.1 hname)
    · obtain ⟨protocol, -, hprotocol⟩ := List.mem_filterMap.1 hname
      exact refName?_ne hprotocol
  · obtain ⟨base, -, hbase⟩ := List.mem_filterMap.1 hname
    obtain ⟨node, -, hbase⟩ := Option.bind_eq_some_iff.1 hbase
    obtain ⟨text, -, hbase⟩ := Option.bind_eq_some_iff.1 hbase
    exact (Json.nonEmptyText?_eq_some.1 hbase).2

theorem ObjC.lawful : vocabulary.Lawful where
  name_ne {node name} h := by
    change nameOf node = some name at h
    unfold nameOf at h
    split at h
    · exact refName?_ne h
    · exact (Json.nonEmptyText?_eq_some.1 h).2
  rawKind := kindOf_of_tagOf
  offset h := (rangeOf_spec h).1
  length h := (rangeOf_spec h).2
  supertypes_ne := supertypes_ne

end Ast

end DeclGraph
