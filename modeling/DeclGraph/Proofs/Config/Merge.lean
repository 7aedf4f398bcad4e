/-
  Merging mappings.

  A merge goes through two mappings key by key, and deeper where both hold a mapping.  What it
  holds at a path of keys is what one of the two holds there.

  * `Json.at?` looks a path up, and `Json.Distinct` says that no mapping on the way binds a key
    twice;
  * `at?_cover_leaf`, `at?_cover_of_none` and `at?_of_at?_cover`: what a merge holds at a path;
  * `cover_cover`: merging again what was merged changes nothing;
  * `merge_paths` joins what a merge holds with the order of its keys.
-/
import DeclGraph.Config.Layers
import DeclGraph.Proofs.Json.Basic

namespace DeclGraph

namespace Json

/-! ## Paths -/

/-- Whether a value is a mapping. -/
def IsMapping (j : Json) : Prop := ∃ ms, j = .obj ms

@[simp] theorem isMapping_obj (ms : List (String × Json)) : (obj ms).IsMapping := ⟨ms, rfl⟩

/-- The value at a path of keys. -/
def at? : List String → Json → Option Json
  | [], j => some j
  | key :: keys, .obj ms => (member? key ms).bind (at? keys)
  | _ :: _, _ => none

theorem member?_eq_none {key : String} {ms : List (String × Json)} (h : key ∉ ms.map Prod.fst) :
    member? key ms = none := by
  rwa [← Option.not_isSome_iff_eq_none, isSome_member?]

@[simp] theorem at?_nil (j : Json) : at? [] j = some j := by cases j <;> rfl

@[simp] theorem bind_at?_nil (o : Option Json) : o.bind (at? []) = o := by cases o <;> simp

@[simp] theorem at?_obj (key : String) (keys : List String) (ms : List (String × Json)) :
    at? (key :: keys) (.obj ms) = (member? key ms).bind (at? keys) := rfl

theorem exists_obj_of_at? {key : String} {keys : List String} {j v : Json}
    (h : at? (key :: keys) j = some v) :
    ∃ ms w, j = .obj ms ∧ member? key ms = some w ∧ at? keys w = some v := by
  cases j with
  | obj ms =>
    rw [at?_obj, Option.bind_eq_some_iff] at h
    obtain ⟨w, hw, hv⟩ := h
    exact ⟨ms, w, rfl, hw, hv⟩
  | _ => simp [at?] at h

/-- No mapping binds a key twice, at any depth.  What stands in lists does not count. -/
inductive Distinct : Json → Prop where
  | leaf {j : Json} (h : ¬ j.IsMapping) : Distinct j
  | obj {ms : List (String × Json)} (hk : (ms.map Prod.fst).Nodup) (h : ∀ m ∈ ms, Distinct m.2) :
    Distinct (.obj ms)

theorem distinct_obj_iff {ms : List (String × Json)} :
    Distinct (.obj ms) ↔ (ms.map Prod.fst).Nodup ∧ ∀ m ∈ ms, Distinct m.2 := by
  constructor
  · intro h
    cases h with
    | leaf h => simp at h
    | obj hk h => exact ⟨hk, h⟩
  · rintro ⟨hk, h⟩
    exact .obj hk h

theorem Distinct.of_member? {ms : List (String × Json)} (h : Distinct (.obj ms)) {key : String}
    {v : Json} (hv : member? key ms = some v) : Distinct v := by
  obtain ⟨hk, h⟩ := distinct_obj_iff.1 h
  exact h (key, v) ((Table.lookup_eq_some_iff_mem hk).1 hv)

theorem Distinct.of_at? {j v : Json} {p : List String} (hj : j.Distinct) (h : at? p j = some v) :
    v.Distinct := by
  induction p generalizing j with
  | nil =>
    rw [at?_nil, Option.some.injEq] at h
    exact h ▸ hj
  | cons key keys ih =>
    obtain ⟨ms, w, rfl, hw, hat⟩ := exists_obj_of_at? h
    exact ih (hj.of_member? hw) hat

end Json

namespace Config

open Json

/-! ## One value over another -/

theorem cover_of_not_isMapping (x : Json) {y : Json} (h : ¬ y.IsMapping) : cover x y = y := by
  cases y with
  | obj ms => simp at h
  | _ => simp [cover]

theorem cover_obj_of_not_isMapping {x : Json} (h : ¬ x.IsMapping) (upper : List (String × Json)) :
    cover x (.obj upper) = .obj upper := by
  cases x with
  | obj ms => simp at h
  | _ => simp [cover]

@[simp] theorem cover_obj_obj (lower upper : List (String × Json)) :
    cover (.obj lower) (.obj upper) = .obj (merge lower upper) := by rw [cover]

@[simp] theorem cover_null (y : Json) : cover .null y = y := by cases y <;> simp [cover]

theorem isMapping_cover_iff {x y : Json} : (cover x y).IsMapping ↔ y.IsMapping := by
  cases y with
  | obj upper => cases x <;> simp [cover]
  | _ => simp [cover]

/-! ## Keys -/

@[simp] theorem merge_nil (lower : List (String × Json)) : merge lower [] = lower := by rw [merge]

/-- A key has the value of the upper mapping over that of the lower one. -/
theorem member?_merge (key : String) {upper : List (String × Json)} :
    ∀ {lower : List (String × Json)}, (upper.map Prod.fst).Nodup →
      member? key (merge lower upper) =
        match member? key upper, member? key lower with
        | none, base => base
        | some v, none => some v
        | some v, some base => some (cover base v) := by
  induction upper with
  | nil => intro lower _; simp [member?]
  | cons m upper ih =>
    intro lower h
    obtain ⟨k, v⟩ := m
    rw [List.map_cons, List.nodup_cons] at h
    rw [merge, ih h.2]
    by_cases hkey : key = k
    · -- the key is bound here, and nowhere else
      subst hkey
      have hnone := member?_eq_none h.1
      have hself : member? key ((key, v) :: upper) = some v := List.lookup_cons_self
      rw [hnone, hself]
      cases hbase : member? key lower <;> simp [member?, Table.lookup_put]
    · have hupper : member? key ((k, v) :: upper) = member? key upper := by
        simp [member?, List.lookup_cons, beq_eq_false_iff_ne.2 hkey]
      have hlower (x : Json) : member? key (Table.put k x lower) = member? key lower := by
        simp [member?, Table.lookup_put, hkey]
      rw [hupper, hlower]

/-- The keys of the lower mapping come first, and the new keys after them. -/
theorem map_fst_merge {upper : List (String × Json)} :
    ∀ {lower : List (String × Json)}, (upper.map Prod.fst).Nodup →
      (merge lower upper).map Prod.fst =
        lower.map Prod.fst ++ (upper.map Prod.fst).filter (· ∉ lower.map Prod.fst) := by
  induction upper with
  | nil => intro lower _; simp
  | cons m upper ih =>
    intro lower h
    obtain ⟨k, v⟩ := m
    rw [List.map_cons, List.nodup_cons] at h
    rw [merge, ih h.2, Table.map_fst_put]
    by_cases hk : k ∈ lower.map Prod.fst
    · rw [if_pos hk, List.map_cons, List.filter_cons_of_neg (by simpa using hk)]
    · have hrest : (upper.map Prod.fst).filter (· ∉ lower.map Prod.fst ++ [k]) =
          (upper.map Prod.fst).filter (· ∉ lower.map Prod.fst) := by
        refine List.filter_congr fun key hkey => ?_
        have hne : key ≠ k := fun he => h.1 (he ▸ hkey)
        simp [hne]
      rw [if_neg hk, hrest, List.map_cons, List.filter_cons_of_pos (by simpa using hk),
        List.append_assoc, List.singleton_append]

/-! ## Paths -/

/-- **A leaf of the upper value stays where it is.** -/
theorem at?_cover_leaf {x y v : Json} {p : List String} (hy : y.Distinct) (hv : ¬ v.IsMapping)
    (h : at? p y = some v) : at? p (cover x y) = some v := by
  induction p generalizing x y with
  | nil =>
    rw [at?_nil, Option.some.injEq] at h
    subst h
    rw [cover_of_not_isMapping x hv, at?_nil]
  | cons key keys ih =>
    obtain ⟨upper, u, rfl, hu, hat⟩ := exists_obj_of_at? h
    by_cases hx : x.IsMapping
    · obtain ⟨lower, rfl⟩ := hx
      rw [cover_obj_obj, at?_obj, member?_merge key (distinct_obj_iff.1 hy).1, hu]
      cases member? key lower with
      | none => exact hat
      | some base => exact ih (hy.of_member? hu) hat
    · rw [cover_obj_of_not_isMapping hx, h]

/-- **Two mappings at a path are merged.** -/
theorem at?_cover_obj {x y : Json} {lower upper : List (String × Json)} {p : List String}
    (hy : y.Distinct) (hlower : at? p x = some (.obj lower)) (hupper : at? p y = some (.obj upper)) :
    at? p (cover x y) = some (.obj (merge lower upper)) := by
  induction p generalizing x y with
  | nil =>
    rw [at?_nil, Option.some.injEq] at hlower hupper
    rw [hlower, hupper, cover_obj_obj, at?_nil]
  | cons key keys ih =>
    obtain ⟨ls, base, rfl, hbase, hlower⟩ := exists_obj_of_at? hlower
    obtain ⟨us, u, rfl, hu, hupper⟩ := exists_obj_of_at? hupper
    rw [cover_obj_obj, at?_obj, member?_merge key (distinct_obj_iff.1 hy).1, hu, hbase]
    exact ih (hy.of_member? hu) hlower hupper

/-- **A leaf of the lower value stays unless the upper value binds its path,** or puts a leaf
    where the path leads through. -/
theorem at?_cover_of_none {x y v : Json} {p : List String} (hy : y.Distinct)
    (hx : at? p x = some v) (hnone : at? p y = none)
    (hopen : ∀ q, q <+: p → q ≠ p → ∀ w, at? q y = some w → w.IsMapping) :
    at? p (cover x y) = some v := by
  induction p generalizing x y with
  | nil => simp at hnone
  | cons key keys ih =>
    obtain ⟨upper, rfl⟩ := hopen [] List.nil_prefix (by simp) y (at?_nil y)
    obtain ⟨lower, base, rfl, hbase, hat⟩ := exists_obj_of_at? hx
    rw [cover_obj_obj, at?_obj, member?_merge key (distinct_obj_iff.1 hy).1, hbase]
    rw [at?_obj] at hnone
    cases hu : member? key upper with
    | none => exact hat
    | some u =>
      rw [hu] at hnone
      refine ih (hy.of_member? hu) hat hnone fun q hq hne w hw => ?_
      refine hopen (key :: q) (by simpa using hq) (by simpa using hne) w ?_
      rw [at?_obj, hu]
      exact hw

/-- **A leaf of a merge is a leaf of one of the two.** -/
theorem at?_of_at?_cover {x y v : Json} {p : List String} (hy : y.Distinct) (hv : ¬ v.IsMapping)
    (h : at? p (cover x y) = some v) : at? p x = some v ∨ at? p y = some v := by
  induction p generalizing x y with
  | nil =>
    rw [at?_nil, Option.some.injEq] at h
    subst h
    rw [isMapping_cover_iff] at hv
    rw [cover_of_not_isMapping x hv]
    exact Or.inr (at?_nil y)
  | cons key keys ih =>
    by_cases hmap : y.IsMapping
    · obtain ⟨upper, rfl⟩ := hmap
      by_cases hx : x.IsMapping
      · obtain ⟨lower, rfl⟩ := hx
        rw [cover_obj_obj, at?_obj, member?_merge key (distinct_obj_iff.1 hy).1] at h
        simp only [at?_obj]
        cases hu : member? key upper with
        | none =>
          rw [hu] at h
          exact Or.inl h
        | some u =>
          rw [hu] at h
          cases hbase : member? key lower with
          | none =>
            rw [hbase] at h
            exact Or.inr h
          | some base =>
            rw [hbase] at h
            exact ih (hy.of_member? hu) h
      · rw [cover_obj_of_not_isMapping hx] at h
        exact Or.inr h
    · rw [cover_of_not_isMapping x hmap] at h
      exact Or.inr h

/-! ## Merging again -/

theorem merge_nil_left {upper : List (String × Json)} (h : (upper.map Prod.fst).Nodup) :
    merge [] upper = upper := by
  have hgo : ∀ lower : List (String × Json), ((lower ++ upper).map Prod.fst).Nodup →
      merge lower upper = lower ++ upper := by
    clear h
    induction upper with
    | nil => intro lower _; simp
    | cons m upper ih =>
      intro lower h
      obtain ⟨k, v⟩ := m
      have hnew : k ∉ lower.map Prod.fst := by
        rw [List.map_append, List.nodup_append] at h
        exact fun hk => h.2.2 k hk k (by simp) rfl
      rw [merge, member?_eq_none hnew, Table.put_of_notMem v hnew, ih _ (by simpa using h)]
      simp
  exact hgo [] h

/-- What is merged already is not changed by merging it once more. -/
theorem merge_eq_self {ms upper : List (String × Json)}
    (h : ∀ m ∈ upper, ∃ w, member? m.1 ms = some w ∧ cover w m.2 = w) : merge ms upper = ms := by
  induction upper with
  | nil => exact merge_nil ms
  | cons m upper ih =>
    obtain ⟨k, v⟩ := m
    obtain ⟨w, hw, hcover⟩ := h (k, v) List.mem_cons_self
    rw [merge, hw]
    dsimp only at hcover ⊢
    rw [hcover, Table.put_of_lookup hw]
    exact ih fun m hm => h m (List.mem_cons_of_mem _ hm)

/-- **Putting a value over another one twice is putting it there once.** -/
theorem cover_cover {y : Json} (hy : y.Distinct) (x : Json) :
    cover (cover x y) y = cover x y := by
  induction hy generalizing x with
  | leaf hleaf => rw [cover_of_not_isMapping _ hleaf, cover_of_not_isMapping _ hleaf]
  | @obj upper hk _ ih =>
    -- every value of the upper mapping is absorbed by what the merge holds at its key
    have habsorbed (lower : List (String × Json)) :
        merge (merge lower upper) upper = merge lower upper := by
      refine merge_eq_self fun m hm => ?_
      have hm' : member? m.1 upper = some m.2 := (Table.lookup_eq_some_iff_mem hk).2 hm
      rw [member?_merge m.1 hk, hm']
      cases member? m.1 lower with
      | none =>
        have hself := ih m hm .null
        rw [cover_null] at hself
        exact ⟨m.2, rfl, hself⟩
      | some base => exact ⟨cover base m.2, rfl, ih m hm base⟩
    by_cases hx : x.IsMapping
    · obtain ⟨lower, rfl⟩ := hx
      rw [cover_obj_obj, cover_obj_obj, habsorbed]
    · have hself := habsorbed []
      rw [merge_nil_left hk] at hself
      rw [cover_obj_of_not_isMapping hx, cover_obj_obj, hself]

theorem cover_self {y : Json} (hy : y.Distinct) : cover y y = y := by
  have h := cover_cover hy .null
  rwa [cover_null] at h

/-- **What a merge of two mappings holds.**  A leaf of the upper mapping is a leaf of the merge; a
    leaf of the lower one stays if the upper mapping neither binds its path nor has a leaf above it;
    and there are no other leaves.  Two mappings at one path are merged, with the keys of the lower
    one first.  The empty mapping changes nothing, and neither does merging again. -/
theorem merge_paths {lower upper : List (String × Json)} (hlower : (Json.obj lower).Distinct)
    (hupper : (Json.obj upper).Distinct) :
    (∀ p v, ¬ v.IsMapping → at? p (.obj upper) = some v →
      at? p (.obj (merge lower upper)) = some v) ∧
    (∀ p v, ¬ v.IsMapping → at? p (.obj lower) = some v → at? p (.obj upper) = none →
      (∀ q, q <+: p → q ≠ p → ∀ w, at? q (.obj upper) = some w → w.IsMapping) →
      at? p (.obj (merge lower upper)) = some v) ∧
    (∀ p v, ¬ v.IsMapping → at? p (.obj (merge lower upper)) = some v →
      at? p (.obj lower) = some v ∨ at? p (.obj upper) = some v) ∧
    (∀ p below above, at? p (.obj lower) = some (.obj below) →
      at? p (.obj upper) = some (.obj above) →
      ∃ ms, at? p (.obj (merge lower upper)) = some (.obj ms) ∧
        ms.map Prod.fst =
          below.map Prod.fst ++ (above.map Prod.fst).filter (· ∉ below.map Prod.fst)) ∧
    merge lower [] = lower ∧ merge [] upper = upper ∧ merge lower lower = lower ∧
    merge (merge lower upper) upper = merge lower upper := by
  rw [← cover_obj_obj]
  refine ⟨fun p v hv => at?_cover_leaf hupper hv, fun p v _ hx => at?_cover_of_none hupper hx,
    fun p v hv => at?_of_at?_cover hupper hv, fun p below above hbelow habove => ?_, merge_nil lower,
    merge_nil_left (distinct_obj_iff.1 hupper).1, ?_, ?_⟩
  · exact ⟨_, at?_cover_obj hupper hbelow habove,
      map_fst_merge (distinct_obj_iff.1 (hupper.of_at? habove)).1⟩
  · have hself := cover_self hlower
    rwa [cover_obj_obj, Json.obj.injEq] at hself
  · have htwice := cover_cover hupper (.obj lower)
    rwa [cover_obj_obj, cover_obj_obj, Json.obj.injEq] at htwice

/-- A leaf takes the place of a mapping with all that is in it, and a mapping beside which nothing
    is bound leaves its neighbours alone. -/
theorem merge_paths_conflicting :
    let lower : List (String × Json) :=
      [("a", .obj [("x", .int 1), ("y", .int 2)]), ("b", .obj [("x", .int 3)])]
    let upper : List (String × Json) :=
      [("c", .null), ("b", .arr []), ("a", .obj [("y", .obj [("z", .int 4)])])]
    (Json.obj lower).Distinct ∧ (Json.obj upper).Distinct ∧
    at? ["a", "x"] (.obj (merge lower upper)) = some (.int 1) ∧
    at? ["a", "y", "z"] (.obj (merge lower upper)) = some (.int 4) ∧
    at? ["b"] (.obj (merge lower upper)) = some (.arr []) ∧
    ∃ ms, at? [] (.obj (merge lower upper)) = some (.obj ms) ∧
      ms.map Prod.fst = ["a", "b", "c"] := by
  intro lower upper
  have hleaf {j : Json} (h : ¬ j.IsMapping) : j.Distinct := .leaf h
  have hlower : (Json.obj lower).Distinct := by
    simp [lower, distinct_obj_iff, hleaf, IsMapping]
  have hupper : (Json.obj upper).Distinct := by
    simp [upper, distinct_obj_iff, hleaf, IsMapping]
  obtain ⟨hover, hkeep, -, hkeys, -⟩ := merge_paths hlower hupper
  refine ⟨hlower, hupper, ?_, ?_, ?_, ?_⟩
  · refine hkeep ["a", "x"] (.int 1) (by simp [IsMapping]) rfl rfl fun q hq hne w hw => ?_
    -- the path leads through the root and through `a`, where both hold mappings
    rcases List.prefix_cons_iff.1 hq with rfl | ⟨t, rfl, ht⟩
    · exact ⟨upper, (Option.some.inj hw).symm⟩
    · rcases List.prefix_cons_iff.1 ht with rfl | ⟨rest, rfl, hrest⟩
      · exact ⟨_, (Option.some.inj hw).symm⟩
      · rw [List.prefix_nil.1 hrest] at hne
        exact absurd rfl hne
  · exact hover ["a", "y", "z"] (.int 4) (by simp [IsMapping]) rfl
  · exact hover ["b"] (.arr []) (by simp [IsMapping]) rfl
  · exact hkeys [] lower upper rfl rfl

end Config

end DeclGraph
