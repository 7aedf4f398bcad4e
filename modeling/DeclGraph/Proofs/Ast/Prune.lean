/-
  Dumps without what was not written in the unit.

  Pruning takes out of every list of children what is no node and what is excluded, with all
  that stands below it.

  * `Shallow`: no part of a node but its children is read off the place of its children;
  * `visited_prune`: the walk through a pruned dump meets the same nodes, each of them pruned;
  * `extract_prune`: a pruned dump declares what the dump declares.
-/
import DeclGraph.Proofs.Ast.Extract
import DeclGraph.Proofs.Ast.Readable
import DeclGraph.Proofs.Ast.Reading

namespace DeclGraph.Ast

/-! ## Pruning -/

section
variable (v : Vocabulary)

mutual

/-- A node with all lists of children below it pruned. -/
def pruneNode : Node → Node
  | [] => []
  | (key, value) :: node =>
    (key, if key = v.childKey then pruneValue value else value) :: pruneNode node

/-- What stands in the place of children, pruned if it is a list. -/
def pruneValue : Json → Json
  | .arr items => .arr (pruneItems items)
  | value => value

/-- A list of children without those that are no nodes or are excluded. -/
def pruneItems : List Json → List Json
  | [] => []
  | .obj node :: items =>
    if v.excluded node then pruneItems items else .obj (pruneNode node) :: pruneItems items
  | _ :: items => pruneItems items

end

/-- A dump with all lists of children pruned; the root stays, whatever it is. -/
def prune : Json → Json
  | .obj node => .obj (pruneNode v node)
  | item => item

end

/-- Whether every list of children in a dump lists only nodes that are not excluded. -/
inductive Pruned (d : Dialect) : Json → Prop
  | node {node : Node} :
      (∀ item ∈ childValues d.vocabulary node, ∃ child, item = .obj child ∧ ¬ Excludes d child) →
      (∀ item ∈ childValues d.vocabulary node, Pruned d item) → Pruned d (.obj node)
  | other {item : Json} : (∀ node, item ≠ .obj node) → Pruned d item

/-! ## Parts of a pruned node -/

/-- Whether two nodes have the same parts but for the value of one key. -/
def SameBut (key : String) (node node' : Node) : Prop :=
  ∀ other, other ≠ key → Json.memberOrNull other node = Json.memberOrNull other node'

/-- What is read off a node apart from its children does not depend on them. -/
structure Vocabulary.Shallow (v : Vocabulary) : Prop where
  excluded : ∀ {node node'}, SameBut v.childKey node node' → v.excluded node = v.excluded node'
  tag : ∀ {node node'}, SameBut v.childKey node node' → v.tag node = v.tag node'
  rawKind : ∀ {node node'}, SameBut v.childKey node node' → v.rawKind node = v.rawKind node'
  name : ∀ {node node'}, SameBut v.childKey node node' → v.name node = v.name node'
  accessWord : ∀ {node node'}, SameBut v.childKey node node' →
    v.accessWord node = v.accessWord node'
  typeName : ∀ {node node'}, SameBut v.childKey node node' → v.typeName node = v.typeName node'
  range : ∀ {node node'}, SameBut v.childKey node node' → v.range node = v.range node'
  supertypes : ∀ {node node'}, SameBut v.childKey node node' →
    v.supertypes node = v.supertypes node'

theorem Swift.shallow : Swift.vocabulary.Shallow where
  excluded h := by
    simp only [vocabulary, isSynthesized, h "key.is_implicit" (by decide),
      h "key.name" (by decide)]
  tag h := by simp only [vocabulary, h "key.kind" (by decide)]
  rawKind h := by simp only [vocabulary, h "key.kind" (by decide)]
  name h := by simp only [vocabulary, nameOf, h "key.name" (by decide)]
  accessWord h := by simp only [vocabulary, h "key.accessibility" (by decide)]
  typeName h := by simp only [vocabulary, h "key.typename" (by decide)]
  range h := by
    simp only [vocabulary, intOrNull, h "key.offset" (by decide), h "key.length" (by decide)]
  supertypes h := by simp only [vocabulary, supertypes, h "key.inheritedtypes" (by decide)]

theorem ObjC.shallow : ObjC.vocabulary.Shallow where
  excluded h := by
    simp only [vocabulary, isForeign, h "isImplicit" (by decide), h "loc" (by decide)]
  tag h := by
    simp only [vocabulary, tagOf, kindOf, h "kind" (by decide), h "tagUsed" (by decide)]
  rawKind h := by simp only [vocabulary, kindOf, h "kind" (by decide)]
  name {node node'} h := by
    have hkind : kindOf node = kindOf node' := by simp only [kindOf, h "kind" (by decide)]
    simp only [vocabulary, nameOf, hkind, h "interface" (by decide), h "name" (by decide)]
  accessWord h := by simp only [vocabulary, h "access" (by decide)]
  typeName {node node'} h := by
    have hkind : kindOf node = kindOf node' := by simp only [kindOf, h "kind" (by decide)]
    simp only [vocabulary, hkind]
    split
    · rw [h "returnType" (by decide)]
    · rw [h "type" (by decide)]
  range h := by
    simp only [vocabulary, rangeOf, boundsOf?, placeOf, h "range" (by decide),
      h "loc" (by decide)]
  supertypes h := by
    simp only [vocabulary, supertypes, h "super" (by decide), h "protocols" (by decide),
      h "bases" (by decide)]

theorem shallow_vocabulary (d : Dialect) : d.vocabulary.Shallow := by
  cases d
  · exact Swift.shallow
  · exact ObjC.shallow

variable {v : Vocabulary} {unit : String}

section
variable {node node' : Node}

theorem symbolOf_of_sameBut (hv : v.Shallow) (h : SameBut v.childKey node' node) (name : String)
    (kind : SymbolKind) : symbolOf v unit node' name kind = symbolOf v unit node name kind := by
  simp only [symbolOf, hv.range h, hv.supertypes h, hv.accessWord h, hv.rawKind h, hv.typeName h]

theorem declaration_of_sameBut (hv : v.Shallow) (h : SameBut v.childKey node' node) :
    declaration v unit node' =
      (declaration v unit node).map (Option.map fun dec => { dec with node := node' }) := by
  simp only [declaration, hv.tag h, hv.name h, symbolOf_of_sameBut hv h]
  cases v.tag node with
  | error fault => rfl
  | ok tag? =>
    cases tag? with
    | none => rfl
    | some tag =>
      cases v.name node with
      | none => rfl
      | some name =>
        simp only [ok_bind]
        by_cases htag : tag = ""
        · rw [if_pos htag, if_pos htag]; rfl
        · rw [if_neg htag, if_neg htag]
          cases SymbolKind.classify? tag with
          | none => rfl
          | some kind =>
            dsimp only
            cases symbolOf v unit node name kind <;> rfl

theorem roleOf_of_sameBut (hv : v.Shallow) (h : SameBut v.childKey node' node) :
    roleOf v node' = roleOf v node := by
  simp only [roleOf, hv.name h, hv.typeName h, hv.accessWord h, hv.tag h]

/-- Of the children of a node its members are all that is taken. -/
theorem readingOf_of_sameBut (hv : v.Shallow) (h : SameBut v.childKey node' node)
    (hmembers : membersOf v node' = membersOf v node) :
    readingOf v unit node' = readingOf v unit node := by
  rw [readingOf, declaration_of_sameBut hv h, readingOf]
  cases hread : declaration v unit node with
  | error fault => rfl
  | ok o =>
    cases o with
    | none => rfl
    | some dec =>
      have hnode : dec.node = node := (declaration_eq_some hread).1
      simp only [map_ok, Option.map_some, Declaration.reading, hmembers, hnode]

end

theorem lookup_pruneNode (key : String) (node : Node) :
    (pruneNode v node).lookup key =
      (node.lookup key).map fun value => if key = v.childKey then pruneValue v value else value := by
  induction node with
  | nil => rfl
  | cons m node ih =>
    obtain ⟨first, value⟩ := m
    rw [pruneNode, List.lookup_cons, List.lookup_cons]
    cases h : key == first with
    | true => rw [← eq_of_beq h]; rfl
    | false => exact ih

theorem sameBut_pruneNode (node : Node) : SameBut v.childKey (pruneNode v node) node := by
  intro other hne
  rw [Json.memberOrNull, Json.memberOrNull, Json.member?, Json.member?, lookup_pruneNode]
  simp only [if_neg hne, Option.map_id_fun', id_eq]

theorem memberOrNull_pruneNode (node : Node) :
    Json.memberOrNull v.childKey (pruneNode v node) =
      pruneValue v (Json.memberOrNull v.childKey node) := by
  rw [Json.memberOrNull, Json.memberOrNull, Json.member?, Json.member?, lookup_pruneNode]
  cases node.lookup v.childKey with
  | none => rfl
  | some value => rw [Option.map_some, if_pos rfl]; rfl

theorem childValues_pruneNode (node : Node) :
    childValues v (pruneNode v node) = pruneItems v (childValues v node) := by
  rw [childValues, memberOrNull_pruneNode, childValues]
  cases Json.memberOrNull v.childKey node <;> rfl

theorem included_pruneItems (hv : v.Shallow) (items : List Json) :
    included v (pruneItems v items) = (included v items).map (pruneNode v) := by
  induction items with
  | nil => rfl
  | cons item items ih =>
    cases item with
    | obj node =>
      have hsame : v.excluded (pruneNode v node) = v.excluded node :=
        hv.excluded (sameBut_pruneNode node)
      simp only [included] at ih ⊢
      by_cases hex : v.excluded node <;> simp [pruneItems, node?, hex, hsame, ih]
    | _ => exact ih

theorem mem_pruneItems {items : List Json} {item : Json} (h : item ∈ pruneItems v items) :
    ∃ child, .obj child ∈ items ∧ v.excluded child = false ∧ item = .obj (pruneNode v child) := by
  induction items with
  | nil => cases h
  | cons first items ih =>
    have hlater (h : item ∈ pruneItems v items) : ∃ child, .obj child ∈ first :: items ∧
        v.excluded child = false ∧ item = .obj (pruneNode v child) := by
      obtain ⟨child, hchild, hitem⟩ := ih h
      exact ⟨child, List.mem_cons_of_mem first hchild, hitem⟩
    cases first with
    | obj child =>
      rw [pruneItems] at h
      split at h
      · exact hlater h
      · rename_i hex
        rcases List.mem_cons.1 h with rfl | h
        · exact ⟨child, List.mem_cons_self, Bool.eq_false_iff.2 hex, rfl⟩
        · exact hlater h
    | _ => exact hlater h

theorem visited_pruneItems {items : List Json}
    (ih : ∀ item ∈ items, visited v (prune v item) = (visited v item).map (pruneNode v)) :
    (pruneItems v items).flatMap (visited v) =
      (items.flatMap (visited v)).map (pruneNode v) := by
  induction items with
  | nil => rfl
  | cons item items ih' =>
    have hitem := ih item List.mem_cons_self
    have hitems := ih' fun x hx => ih x (List.mem_cons_of_mem _ hx)
    rw [List.flatMap_cons, List.map_append, ← hitem, ← hitems]
    cases item with
    | obj node =>
      rw [pruneItems]
      split
      · rename_i hex
        rw [hitem, visited_excluded v hex]
        rfl
      · rfl
    | _ => rw [hitem, visited_of_not_node v] <;> first | rfl | exact nofun

/-- **The walk through a pruned dump** meets the same nodes in the same order. -/
theorem visited_prune (hv : v.Shallow) (dump : Json) :
    visited v (prune v dump) = (visited v dump).map (pruneNode v) := by
  induction dump using dump_induction v with
  | node node ih =>
    have hsame : v.excluded (pruneNode v node) = v.excluded node :=
      hv.excluded (sameBut_pruneNode node)
    rw [prune]
    cases hex : v.excluded node with
    | true => rw [visited_excluded v hex, visited_excluded v (hsame.trans hex), List.map_nil]
    | false =>
      rw [visited_included v hex, visited_included v (hsame.trans hex), childValues_pruneNode,
        visited_pruneItems ih, List.map_cons]
  | other item h =>
    have hprune : prune v item = item := by
      cases item with
      | obj node => exact absurd rfl (h node)
      | _ => rfl
    rw [hprune, visited_of_not_node v h, List.map_nil]

theorem pruned_prune (d : Dialect) (dump : Json) : Pruned d (prune d.vocabulary dump) := by
  induction dump using dump_induction d.vocabulary with
  | node node ih =>
    refine .node ?_ ?_ <;> rw [childValues_pruneNode] <;> intro item hitem <;>
      obtain ⟨child, hchild, hex, rfl⟩ := mem_pruneItems hitem
    · refine ⟨_, rfl, ?_⟩
      rw [← excluded_eq_false_iff, (shallow_vocabulary d).excluded (sameBut_pruneNode child)]
      exact hex
    · exact ih _ hchild
  | other item h =>
    cases item with
    | obj node => exact absurd rfl (h node)
    | _ => exact .other nofun

/-! ## What is read off a pruned dump -/

theorem children_pruneNode (hv : v.Shallow) (node : Node) :
    children v (pruneNode v node) = (children v node).map (List.map (pruneNode v)) := by
  rw [children, memberOrNull_pruneNode, children]
  cases hvalue : Json.memberOrNull v.childKey node with
  | arr items =>
    rw [pruneValue, Json.listedOrNone_arr, Json.listedOrNone_arr, map_ok, map_ok, map_ok,
      included_pruneItems hv]
  | _ =>
    -- what is no list is left as it is, and it lists no nodes
    simp only [pruneValue]
    rw [← hvalue]
    cases hlisted : (Json.memberOrNull v.childKey node).listedOrNone with
    | error fault => rfl
    | ok items =>
      have hnone : included v items = [] := by
        rw [included_of_listedOrNone hlisted, childValues, hvalue]
        rfl
      rw [map_ok, map_ok, hnone, List.map_nil]

theorem membersOf_pruneNode (hv : v.Shallow) (node : Node) :
    membersOf v (pruneNode v node) = membersOf v node := by
  rw [membersOf, children_pruneNode hv, membersOf]
  cases children v node with
  | error fault => rfl
  | ok nodes =>
    have hroles : (nodes.map (pruneNode v)).mapM (roleOf v) = nodes.mapM (roleOf v) := by
      rw [List.mapM_map]
      exact congrArg (nodes.mapM ·)
        (funext fun child => roleOf_of_sameBut hv (sameBut_pruneNode child))
    rw [map_ok, ok_bind, ok_bind, hroles]

/-! ## Units -/

theorem extract_prune_eq (d : Dialect) (unit : String) (dump : Json) :
    extract d unit (prune d.vocabulary dump) = extract d unit dump := by
  have hv := shallow_vocabulary d
  have hreading (node : Node) : readingOf d.vocabulary unit (pruneNode d.vocabulary node) =
      readingOf d.vocabulary unit node :=
    readingOf_of_sameBut hv (sameBut_pruneNode node) (membersOf_pruneNode hv node)
  rw [extract_eq_assemble, visited_prune hv, readings, List.mapM_map, extract_eq_assemble, readings]
  exact congrArg (fun f => ((visited d.vocabulary dump).mapM f).map (List.filterMap id) >>= assemble d)
    (funext hreading)

/-- **What was not written in the unit is invisible:** a dump from which it is taken out, at
    every depth, reads as the dump does, or fails as it does.  So dumps that differ in nothing
    else read the same. -/
theorem extract_prune (d : Dialect) (unit : String) (dump : Json) :
    Pruned d (prune d.vocabulary dump) ∧
      extract d unit (prune d.vocabulary dump) = extract d unit dump ∧
      ∀ dump', prune d.vocabulary dump' = prune d.vocabulary dump →
        extract d unit dump' = extract d unit dump := by
  refine ⟨pruned_prune d dump, extract_prune_eq d unit dump, fun dump' h => ?_⟩
  rw [← extract_prune_eq d unit dump', h, extract_prune_eq]

end DeclGraph.Ast
