/-
  Tables made of lists of pairs.
-/
import DeclGraph.Table
import Mathlib.Data.List.Induction
import Mathlib.Data.List.Nodup

namespace DeclGraph

theorem map_eq_self_iff {α : Type*} {f : α → α} {xs : List α} :
    xs.map f = xs ↔ ∀ x ∈ xs, f x = x := by
  have h := List.map_inj_left (l := xs) (f := f) (g := id)
  rwa [List.map_id] at h

/-- Two lists are the same up to order if their parts of each class are. -/
theorem perm_of_filter_perm {α γ : Type*} [DecidableEq α] [DecidableEq γ] {f : α → γ}
    {xs ys : List α} (h : ∀ c, (xs.filter (f · = c)).Perm (ys.filter (f · = c))) : xs.Perm ys := by
  rw [List.perm_iff_count]
  intro x
  have hx : decide (f x = f x) = true := decide_eq_true rfl
  have hcount := (h (f x)).count_eq x
  rwa [List.count_filter (p := (f · = f x)) hx, List.count_filter (p := (f · = f x)) hx] at hcount

/-- A sublist of a list without repetitions is known by its members, … -/
theorem filter_mem_of_sublist {α : Type*} [DecidableEq α] {xs ys : List α} (h : xs.Sublist ys)
    (hnodup : ys.Nodup) : ys.filter (· ∈ xs) = xs := by
  induction h with
  | slnil => rfl
  | @cons xs ys y h ih =>
    have hy := (List.nodup_cons.1 hnodup).1
    have hxs : y ∉ xs := fun hmem => hy (h.subset hmem)
    simp [hxs, ih (List.nodup_cons.1 hnodup).2]
  | @cons_cons xs ys y h ih =>
    have hy := (List.nodup_cons.1 hnodup).1
    rw [List.filter_cons_of_pos (by simp)]
    refine congrArg (List.cons y) ?_
    rw [← ih (List.nodup_cons.1 hnodup).2]
    refine List.filter_congr fun z hz => ?_
    have hne : z ≠ y := fun e => hy (e ▸ hz)
    simp [hne, List.mem_filter, hz]

/-- … so that there is only one with the same members. -/
theorem sublist_ext {α : Type*} [DecidableEq α] {xs xs' ys : List α} (h : xs.Sublist ys)
    (h' : xs'.Sublist ys) (hnodup : ys.Nodup) (hmem : ∀ y, y ∈ xs ↔ y ∈ xs') : xs = xs' := by
  rw [← filter_mem_of_sublist h hnodup, ← filter_mem_of_sublist h' hnodup]
  simp only [hmem]

namespace Table

universe u v

variable {α : Type u} {β : Type v}

/-! ## Entries -/

/-- Where keys are distinct, looking up is membership. -/
theorem lookup_eq_some_iff_mem {key : String} {value : α} :
    ∀ {es : List (String × α)}, (es.map Prod.fst).Nodup →
      (es.lookup key = some value ↔ (key, value) ∈ es)
  | [], _ => by simp
  | (k, v) :: es, h => by
    rw [List.map_cons, List.nodup_cons] at h
    rw [List.mem_cons, Prod.mk.injEq]
    by_cases hk : key = k
    · subst hk
      rw [List.lookup_cons_self, Option.some.injEq]
      refine ⟨fun hv => Or.inl ⟨rfl, hv.symm⟩, fun hv => ?_⟩
      rcases hv with hv | hv
      · exact hv.2.symm
      · exact absurd (List.mem_map_of_mem hv) h.1
    · rw [List.lookup_cons, beq_eq_false_iff_ne.2 hk, ← lookup_eq_some_iff_mem h.2]
      simp [hk]

theorem put_of_notMem {key : String} (value : α) :
    ∀ {es : List (String × α)}, key ∉ es.map Prod.fst → put key value es = es ++ [(key, value)]
  | [], _ => rfl
  | (k, v) :: es, h => by
    rw [List.map_cons, List.mem_cons, not_or] at h
    rw [put, if_neg (Ne.symm h.1), put_of_notMem value h.2, List.cons_append]

theorem put_put (key : String) (x y : α) (es : List (String × α)) :
    put key x (put key y es) = put key x es := by
  induction es with
  | nil => simp [put]
  | cons e es ih =>
    obtain ⟨k, v⟩ := e
    by_cases h : k = key <;> simp [put, h, ih]

theorem put_of_lookup {key : String} {x : α} {es : List (String × α)}
    (h : es.lookup key = some x) : put key x es = es := by
  induction es with
  | nil => cases h
  | cons e es ih =>
    obtain ⟨k, v⟩ := e
    rw [List.lookup_cons] at h
    split at h
    · rename_i hk
      obtain rfl := Option.some.inj h
      rw [put, if_pos (eq_of_beq hk).symm]
    · rename_i hk
      rw [put, if_neg fun he => by simp [he] at hk, ih h]

/-- Pairs with distinct keys are put at the end one after the other. -/
theorem foldl_put_of_nodup (ps : List (String × α)) :
    ∀ es : List (String × α), ((es ++ ps).map Prod.fst).Nodup →
      ps.foldl (fun es e => put e.1 e.2 es) es = es ++ ps := by
  induction ps with
  | nil => intro es _; rw [List.foldl_nil, List.append_nil]
  | cons e ps ih =>
    intro es h
    have hnew : e.1 ∉ es.map Prod.fst := by
      rw [List.map_append, List.nodup_append] at h
      exact fun he => h.2.2 _ he _ (by simp) rfl
    rw [List.foldl_cons, put_of_notMem _ hnew, ih _ (by simpa using h), List.append_assoc]
    rfl

theorem entries_foldl_insert (ps : List (String × α)) :
    ∀ t : Table α, (ps.foldl (fun t e => t.insert e.1 e.2) t).entries =
      ps.foldl (fun es e => put e.1 e.2 es) t.entries := by
  induction ps with
  | nil => exact fun _ => rfl
  | cons e ps ih => exact fun t => ih (t.insert e.1 e.2)

theorem entries_ofList (ps : List (String × α)) :
    (ofList ps).entries = ps.foldl (fun es e => put e.1 e.2 es) [] :=
  entries_foldl_insert ps empty

/-- Pairs with distinct keys are the entries of their table. -/
theorem entries_ofList_of_nodup {ps : List (String × α)} (h : (ps.map Prod.fst).Nodup) :
    (ofList ps).entries = ps := by
  rw [entries_ofList, foldl_put_of_nodup ps [] h, List.nil_append]

/-- The last of several pairs is bound last. -/
theorem ofList_concat (ps : List (String × α)) (p : String × α) :
    ofList (ps ++ [p]) = (ofList ps).insert p.1 p.2 := by
  rw [ofList, List.foldl_append]
  rfl

/-- The keys come in the order in which they first stand among the pairs. -/
theorem keys_ofList (ps : List (String × α)) :
    (ofList ps).keys = (ps.map Prod.fst).eraseDups := by
  induction ps using List.reverseRecOn with
  | nil => rfl
  | append_singleton ps p ih =>
    have hmem : p.1 ∈ (ofList ps).keys ↔ p.1 ∈ ps.map Prod.fst := by rw [ih, List.mem_eraseDups]
    rw [ofList_concat, keys_insert, List.map_append, List.eraseDups_append, ← ih]
    by_cases h : p.1 ∈ ps.map Prod.fst
    · simp [List.removeAll, h, hmem.2 h]
    · simp [List.removeAll, List.eraseDups_cons, h, mt hmem.1 h]

theorem keys_ofList_sublist (ps : List (String × α)) :
    (ofList ps).keys.Sublist (ps.map Prod.fst) := by
  induction ps using List.reverseRecOn with
  | nil => exact List.Sublist.refl _
  | append_singleton ps p ih =>
    rw [ofList_concat, keys_insert, List.map_append]
    split
    · exact ih.trans (List.sublist_append_left _ _)
    · exact ih.append (List.Sublist.refl _)

/-- Pairs that make as many entries as they are have distinct keys. -/
theorem nodup_of_size_ofList {ps : List (String × α)} (h : (ofList ps).size = ps.length) :
    (ps.map Prod.fst).Nodup := by
  have hlength : (ofList ps).keys.length = (ps.map Prod.fst).length := by
    rw [keys, List.length_map, List.length_map]
    exact h
  rw [← (keys_ofList_sublist ps).eq_of_length hlength]
  exact (ofList ps).nodup

@[simp] theorem ofList_entries (t : Table α) : ofList t.entries = t :=
  ext (entries_ofList_of_nodup t.nodup)

/-! ## Where entries come from -/

theorem mem_of_mem_put {key : String} {value : α} {e : String × α} :
    ∀ {es : List (String × α)}, e ∈ put key value es → e = (key, value) ∨ e ∈ es
  | [], h => Or.inl (List.mem_singleton.1 h)
  | (k, v) :: es, h => by
    rw [put] at h
    split at h
    · rename_i hk
      rcases List.mem_cons.1 h with rfl | h
      · exact Or.inl (by rw [hk])
      · exact Or.inr (List.mem_cons_of_mem _ h)
    · rcases List.mem_cons.1 h with rfl | h
      · exact Or.inr List.mem_cons_self
      · exact (mem_of_mem_put h).imp_right (List.mem_cons_of_mem _)

/-- A table made of a list of pairs holds nothing but these pairs. -/
theorem mem_of_mem_ofList {ps : List (String × α)} {e : String × α} (h : e ∈ (ofList ps).entries) :
    e ∈ ps := by
  rw [entries_ofList] at h
  have hfold : ∀ (ps es : List (String × α)),
      e ∈ ps.foldl (fun es e => put e.1 e.2 es) es → e ∈ ps ∨ e ∈ es := by
    intro ps
    induction ps with
    | nil => exact fun es h => Or.inr h
    | cons p ps ih =>
      intro es h
      rcases ih _ h with h | h
      · exact Or.inl (List.mem_cons_of_mem _ h)
      · exact (mem_of_mem_put h).imp_left fun (he : e = p) => he ▸ List.mem_cons_self
  rcases hfold ps [] h with h | h
  · exact h
  · cases h

/-! ## One more pair -/

theorem put_around {key : String} (value : α) {e : String × α} (h : key ≠ e.1) :
    ∀ before after : List (String × α), ∃ before' after',
      put key value (before ++ after) = before' ++ after' ∧
        put key value (before ++ e :: after) = before' ++ e :: after'
  | [], after => by
    refine ⟨[], put key value after, rfl, ?_⟩
    obtain ⟨k, v⟩ := e
    rw [List.nil_append, List.nil_append, put, if_neg (Ne.symm h)]
  | (k, v) :: before, after => by
    by_cases hk : k = key
    · exact ⟨(k, value) :: before, after, by simp [put, hk], by simp [put, hk]⟩
    · obtain ⟨before', after', h₁, h₂⟩ := put_around value h before after
      exact ⟨(k, v) :: before', after', by simp [put, hk, h₁], by simp [put, hk, h₂]⟩

theorem foldl_put_around {e : String × α} {ps : List (String × α)} (h : ∀ p ∈ ps, p.1 ≠ e.1)
    (before after : List (String × α)) : ∃ before' after',
      ps.foldl (fun es p => put p.1 p.2 es) (before ++ after) = before' ++ after' ∧
        ps.foldl (fun es p => put p.1 p.2 es) (before ++ e :: after) = before' ++ e :: after' := by
  induction ps generalizing before after with
  | nil => exact ⟨before, after, rfl, rfl⟩
  | cons p ps ih =>
    obtain ⟨before', after', h₁, h₂⟩ := put_around p.2 (h p List.mem_cons_self) before after
    rw [List.foldl_cons, List.foldl_cons, h₁, h₂]
    exact ih (fun q hq => h q (List.mem_cons_of_mem _ hq)) before' after'

/-- A pair with a new key adds one entry and leaves the others in their order. -/
theorem entries_ofList_insert {e : String × α} {before after : List (String × α)}
    (h : ∀ p ∈ before ++ after, p.1 ≠ e.1) : ∃ before' after',
      (ofList (before ++ after)).entries = before' ++ after' ∧
        (ofList (before ++ e :: after)).entries = before' ++ e :: after' := by
  have hnew : e.1 ∉ (ofList before).entries.map Prod.fst := by
    intro hkey
    obtain ⟨p, hp, hpe⟩ := List.mem_map.1 hkey
    exact h p (List.mem_append_left _ (mem_of_mem_ofList hp)) hpe
  have hafter := foldl_put_around (e := e) (fun p hp => h p (List.mem_append_right _ hp))
    (ofList before).entries []
  rw [entries_ofList, entries_ofList, List.foldl_append, List.foldl_append, List.foldl_cons,
    ← entries_ofList before, put_of_notMem _ hnew]
  rwa [List.append_nil] at hafter

/-! ## Looking up -/

/-- Of several pairs with one key the last one counts. -/
theorem get?_ofList (ps : List (String × α)) (key : String) :
    (ofList ps).get? key = ps.reverse.lookup key := by
  induction ps using List.reverseRecOn with
  | nil => rfl
  | append_singleton ps p ih =>
    rw [ofList_concat, get?_insert, List.reverse_append, List.reverse_singleton,
      List.singleton_append, List.lookup_cons, ← ih]
    split
    · rename_i h
      rw [h, beq_self_eq_true]
    · rename_i h
      rw [beq_eq_false_iff_ne.2 h]

theorem lookup_eq_find? (key : String) (es : List (String × α)) :
    es.lookup key = (es.find? (·.1 = key)).map Prod.snd := by
  induction es with
  | nil => rfl
  | cons e es ih =>
    rw [List.lookup_cons, List.find?_cons]
    by_cases h : key = e.1
    · rw [beq_iff_eq.2 h, decide_eq_true h.symm]
      rfl
    · rw [beq_eq_false_iff_ne.2 h, decide_eq_false (Ne.symm h)]
      exact ih

theorem get?_ofList_eq_getLast? (ps : List (String × α)) (key : String) :
    (ofList ps).get? key = (ps.filter (·.1 = key)).getLast?.map Prod.snd := by
  rw [get?_ofList, lookup_eq_find?, List.getLast?_filter]

theorem mem_keys_iff {t : Table α} {key : String} : key ∈ t.keys ↔ (t.get? key).isSome := by
  simp only [get?, List.lookup_isSome_iff, keys, List.mem_map, beq_iff_eq, @eq_comm _ key]

/-! ## Lists of what the entries contribute -/

theorem filter_flatMap_of_nodup {f : String × α → List β} {keyOf : β → String} (key : String) :
    ∀ {es : List (String × α)}, (es.map Prod.fst).Nodup →
      (∀ e ∈ es, ∀ x ∈ f e, keyOf x = e.1) →
      (es.flatMap f).filter (keyOf · = key) = ((es.lookup key).map fun v => f (key, v)).getD []
  | [], _, _ => rfl
  | (k, v) :: es, h, hf => by
    rw [List.map_cons, List.nodup_cons] at h
    have hfirst := hf (k, v) List.mem_cons_self
    have ih := filter_flatMap_of_nodup key h.2 fun e he => hf e (List.mem_cons_of_mem _ he)
    rw [List.flatMap_cons, List.filter_append, ih, List.lookup_cons]
    by_cases hk : key = k
    · -- the key is the first one, so that the other entries contribute nothing
      subst hk
      have hnone : es.lookup key = none := by
        rw [List.lookup_eq_none_iff]
        exact fun e he => bne_iff_ne.2 fun hkey => h.1 (List.mem_map.2 ⟨e, he, hkey.symm⟩)
      rw [hnone, beq_self_eq_true, List.filter_eq_self.2 fun x hx => decide_eq_true (hfirst x hx)]
      exact List.append_nil _
    · have hnil : (f (k, v)).filter (keyOf · = key) = [] :=
        List.filter_eq_nil_iff.2 fun x hx hkey =>
          hk ((of_decide_eq_true hkey).symm.trans (hfirst x hx))
      rw [hnil, beq_eq_false_iff_ne.2 hk, List.nil_append]

/-- What the entry of a key contributes to a list, as a part of that list. -/
theorem filter_flatMap_entries (t : Table α) {f : String × α → List β} {keyOf : β → String}
    (hf : ∀ e ∈ t.entries, ∀ x ∈ f e, keyOf x = e.1) (key : String) :
    (t.entries.flatMap f).filter (keyOf · = key) =
      ((t.get? key).map fun v => f (key, v)).getD [] :=
  filter_flatMap_of_nodup key t.nodup hf

/-- A list to which the entries contribute in a row falls into the parts of the keys. -/
theorem flatMap_keys_filter (t : Table α) {f : String × α → List β} {keyOf : β → String}
    (hf : ∀ e ∈ t.entries, ∀ x ∈ f e, keyOf x = e.1) :
    t.keys.flatMap (fun key => (t.entries.flatMap f).filter (keyOf · = key)) =
      t.entries.flatMap f := by
  rw [keys, List.flatMap_map]
  refine List.flatMap_congr fun e he => ?_
  rw [filter_flatMap_entries t hf, get?, (lookup_eq_some_iff_mem t.nodup).2 he]
  rfl

/-! ## Changing the values -/

theorem lookup_map_snd (f : String → α → β) (key : String) (es : List (String × α)) :
    (es.map fun e => (e.1, f e.1 e.2)).lookup key = (es.lookup key).map (f key) := by
  induction es with
  | nil => rfl
  | cons e es ih =>
    obtain ⟨k, v⟩ := e
    rw [List.map_cons, List.lookup_cons, List.lookup_cons]
    cases h : key == k with
    | true => rw [← eq_of_beq h]; rfl
    | false => exact ih

theorem lookup_filter_ne (key other : String) (es : List (String × α)) :
    (es.filter fun e => e.1 ≠ other).lookup key =
      if key = other then none else es.lookup key := by
  induction es with
  | nil => simp
  | cons e es ih =>
    obtain ⟨k, value⟩ := e
    by_cases hk : k = other
    · rw [List.filter_cons_of_neg (by simpa using hk), ih, List.lookup_cons]
      by_cases hkey : key = k
      · simp [hkey, hk]
      · simp [beq_eq_false_iff_ne.2 hkey]
    · rw [List.filter_cons_of_pos (by simpa using hk), List.lookup_cons, List.lookup_cons, ih]
      by_cases hkey : key = k
      · simp [hkey, hk]
      · simp [beq_eq_false_iff_ne.2 hkey]

@[simp] theorem get?_map (f : String → α → β) (t : Table α) (key : String) :
    (t.map f).get? key = (t.get? key).map (f key) :=
  lookup_map_snd f key t.entries

theorem map_put (f : String → α → β) (key : String) (value : α) (es : List (String × α)) :
    (put key value es).map (fun e => (e.1, f e.1 e.2)) =
      put key (f key value) (es.map fun e => (e.1, f e.1 e.2)) := by
  induction es with
  | nil => rfl
  | cons e es ih =>
    obtain ⟨k, v⟩ := e
    by_cases h : k = key <;> simp [put, h, ih]

theorem map_insert (f : String → α → β) (t : Table α) (key : String) (value : α) :
    (t.insert key value).map f = (t.map f).insert key (f key value) :=
  ext (map_put f key value t.entries)

/-- Values are changed before they are bound, or after. -/
theorem map_ofList (f : String → α → β) (ps : List (String × α)) :
    (ofList ps).map f = ofList (ps.map fun e => (e.1, f e.1 e.2)) := by
  induction ps using List.reverseRecOn with
  | nil => rfl
  | append_singleton ps p ih =>
    rw [ofList_concat, map_insert, ih, List.map_append, List.map_singleton, ofList_concat]

theorem map_eq_self_iff {f : String → α → α} {t : Table α} :
    t.map f = t ↔ ∀ key value, (key, value) ∈ t.entries → f key value = value := by
  rw [Table.ext_iff, map, DeclGraph.map_eq_self_iff]
  simp only [Prod.forall, Prod.mk.injEq, true_and]

end Table

end DeclGraph
