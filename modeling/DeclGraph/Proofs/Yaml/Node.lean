/-
  Nodes that stand for values.

  * `resolve_eq_str`: a plain scalar that is read as a text is read as itself;
  * `Node.Means`: a node that is read as a value;
  * `Node.IsScalar` and `Node.AreScalars`: nodes that are read as texts;
  * `Node.AreMembers.value_eq`: a mapping of such nodes, under names.
-/
import DeclGraph.Yaml.Node
import Mathlib.Data.List.Forall2

namespace DeclGraph.Yaml

variable {s : String} {ss : List String}

/-! ## Plain scalars -/

theorem resolve_of_isText (h : isText s = true) : resolve s = .ok (.str s) := by
  rw [isText, Option.isNone_iff_eq_none] at h
  rw [resolve, h]
  rfl

/-- What a plain scalar means that is no text is no list either. -/
theorem special?_ok {j : Json} (h : special? s = some (.ok j)) :
    (∀ t, j ≠ .str t) ∧ ∀ items, j ≠ .arr items := by
  rw [special?] at h
  split at h
  · cases h
    exact ⟨nofun, nofun⟩
  split at h
  · cases h
  split at h
  · cases h
    exact ⟨nofun, nofun⟩
  dsimp only at h
  split at h
  · cases h
    exact ⟨nofun, nofun⟩
  · rename_i n _ _
    cases n with
    | ok n =>
      cases h
      exact ⟨nofun, nofun⟩
    | error e => cases h
  · split at h
    · split at h
      · cases h
        exact ⟨nofun, nofun⟩
      · cases h
    · cases h

/-- A plain scalar that is read as a text is read as itself. -/
theorem resolve_eq_str {s t : String} (h : resolve s = .ok (.str t)) : t = s ∧ isText s = true := by
  rw [resolve] at h
  cases hspecial : special? s with
  | none =>
    rw [hspecial] at h
    cases h
    exact ⟨rfl, by rw [isText, hspecial]; rfl⟩
  | some found =>
    rw [hspecial] at h
    obtain rfl : found = .ok (.str t) := h
    exact absurd rfl ((special?_ok hspecial).1 t)

/-- No plain scalar is read as a list. -/
theorem resolve_ne_arr (s : String) (items : List Json) : resolve s ≠ .ok (.arr items) := by
  rw [resolve]
  cases hspecial : special? s with
  | none => exact nofun
  | some found =>
    rintro (rfl : found = .ok (.arr items))
    exact (special?_ok hspecial).2 items rfl

/-! ## Values -/

/-- A node that is read as a value. -/
structure Node.Means (n : Node) (j : Json) : Prop where
  toJson_eq : n.toJson = j
  flaw?_eq_none : n.flaw? = none
  levels_eq_nil : n.levels.flatten = []

theorem Node.flatten_joinLevels {α : Type} : ∀ {xs ys : List (List α)}, xs.flatten = [] →
    ys.flatten = [] → (joinLevels xs ys).flatten = []
  | [], _, _, hys => by rwa [joinLevels]
  | _ :: _, [], hxs, _ => by rwa [joinLevels]; exact nofun
  | x :: xs, y :: ys, hxs, hys => by
    rw [List.flatten_cons, List.append_eq_nil_iff] at hxs hys
    rw [joinLevels, List.flatten_cons, hxs.1, hys.1, flatten_joinLevels hxs.2 hys.2]
    rfl

/-! ## Scalars -/

/-- A scalar that is read as a text. -/
inductive Node.IsScalar (s : String) : Node → Prop where
  | text : IsScalar s (.text s)
  | plain : isText s = true → IsScalar s (.plain s)

theorem Node.IsScalar.means {n : Node} (h : n.IsScalar s) : n.Means (.str s) := by
  cases h with
  | text => exact ⟨rfl, rfl, rfl⟩
  | plain h => exact ⟨by rw [toJson, resolve_of_isText h]; rfl, by rw [flaw?, resolve_of_isText h], rfl⟩

theorem Node.isScalar_of_toJson {n : Node} (h : n.toJson = .str s) : n.IsScalar s := by
  cases n with
  | text t =>
    obtain rfl := Json.str.inj h
    exact .text
  | plain t =>
    rw [toJson] at h
    cases hj : resolve t with
    | error e =>
      rw [hj] at h
      cases h
    | ok j =>
      rw [hj] at h
      obtain rfl : j = .str s := h
      obtain ⟨rfl, htext⟩ := resolve_eq_str hj
      exact .plain htext
  | list items => cases h
  | mapping members => cases h

theorem Node.eq_list_of_toJson {n : Node} {js : List Json} (h : n.toJson = .arr js) :
    ∃ items, n = .list items ∧ itemsToJson items = js := by
  cases n with
  | text t => cases h
  | plain t =>
    rw [toJson] at h
    cases hj : resolve t with
    | error e =>
      rw [hj] at h
      cases h
    | ok j =>
      rw [hj] at h
      obtain rfl : j = .arr js := h
      exact absurd hj (resolve_ne_arr t js)
  | list items => exact ⟨items, rfl, Json.arr.inj h⟩
  | mapping members => cases h

/-- Scalars that are read as some texts. -/
def Node.AreScalars (ss : List String) (ns : List Node) : Prop :=
  List.Forall₂ Node.IsScalar ss ns

theorem Node.AreScalars.itemsToJson_eq {ns : List Node} (h : AreScalars ss ns) :
    itemsToJson ns = ss.map .str := by
  induction h with
  | nil => rfl
  | cons hn _ ih => rw [itemsToJson, hn.means.toJson_eq, ih]; rfl

theorem Node.AreScalars.filterMap_flaw? {ns : List Node} (h : AreScalars ss ns) :
    ns.filterMap flaw? = [] := by
  induction h with
  | nil => rfl
  | cons hn _ ih => rw [List.filterMap_cons, hn.means.flaw?_eq_none]; exact ih

theorem Node.AreScalars.flatten_levelsOfItems {ns : List Node} (h : AreScalars ss ns) :
    (levelsOfItems ns).flatten = [] := by
  induction h with
  | nil => rfl
  | cons hn _ ih => exact flatten_joinLevels hn.means.levels_eq_nil ih

theorem Node.AreScalars.means {ns : List Node} (h : AreScalars ss ns) :
    (Node.list ns).Means (.ofTexts ss) where
  toJson_eq := by rw [toJson, h.itemsToJson_eq]; rfl
  flaw?_eq_none := rfl
  levels_eq_nil := by
    rw [levels, List.flatten_cons, h.filterMap_flaw?, h.flatten_levelsOfItems]
    rfl

/-! ## Mappings -/

/-- Keys that are names, and values. -/
def Node.AreMembers (ms : List (String × Json)) (ns : List (Node × Node)) : Prop :=
  List.Forall₂ (fun m n => n.1 = .plain m.1 ∧ isText m.1 = true ∧ n.2.Means m.2) ms ns

variable {ms : List (String × Json)} {ns : List (Node × Node)}

theorem Node.AreMembers.membersToJson_eq (h : AreMembers ms ns) : membersToJson ns = ms := by
  induction h with
  | nil => rfl
  | @cons m n _ _ hn _ ih =>
    obtain ⟨hkey, htext, hvalue⟩ := hn
    have hname : n.1.key = m.1 := by
      rw [hkey, key, resolve_of_isText htext]
      rfl
    rw [membersToJson, ih, hname, hvalue.toJson_eq]

theorem Node.AreMembers.flaws (h : AreMembers ms ns) :
    (ns.flatMap fun n => n.1.keyFlaw?.toList ++ n.2.flaw?.toList) = [] ∧
      (levelsOfMembers ns).flatten = [] := by
  induction h with
  | nil => exact ⟨rfl, rfl⟩
  | @cons m n _ _ hn _ ih =>
    obtain ⟨hkey, htext, hvalue⟩ := hn
    have hscalar : (Node.plain m.1).flaw? = none := (IsScalar.plain htext).means.flaw?_eq_none
    have hflaw : n.1.keyFlaw? = none := by
      rw [hkey]
      change ite _ none (Node.plain m.1).flaw? = none
      rw [hscalar, ite_self]
    refine ⟨?_, flatten_joinLevels hvalue.levels_eq_nil ih.2⟩
    rw [List.flatMap_cons, ih.1, hflaw, hvalue.flaw?_eq_none]
    rfl

/-- A mapping under names is read as its members. -/
theorem Node.AreMembers.value_eq (h : AreMembers ms ns) :
    (Node.mapping ns).value = .ok (.ofMembers ms) := by
  have hflaws : (Node.mapping ns).flaws = [] := by
    rw [Node.flaws, levels, List.flatten_cons, h.flaws.1, h.flaws.2]
    rfl
  rw [value, hflaws, toJson, h.membersToJson_eq]

theorem Node.AreMembers.hasOddKey (h : AreMembers ms ns) : (Node.mapping ns).hasOddKey = false := by
  rw [Node.hasOddKey]
  induction h with
  | nil => rfl
  | @cons m n _ _ hn _ ih =>
    have hkey : n.1.isTextKey = true := by rw [hn.1, isTextKey, hn.2.1, Bool.true_or]
    rw [List.any_cons, hkey, ih]
    rfl

end DeclGraph.Yaml
