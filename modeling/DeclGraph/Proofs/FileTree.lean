/-
  Putting something into a directory tree.

  * `putAt?_eq_none_iff`: nothing can be put below a file;
  * `file_putAt?_iff` and `DirAt.putAt?`: what stands elsewhere is left as it is;
  * `remove_putAt?`: a new entry that is taken away again leaves no trace.
-/
import DeclGraph.FileTree
import DeclGraph.Proofs.Table

namespace DeclGraph.FileTree

variable {t t' : FileTree} {new : FileTree} {p q : List String}

/-! ## Places -/

/-- A directory stands at a place. -/
def DirAt (place : List String) (t : FileTree) : Prop := ∃ es, at? place t = some (dir es)

theorem at?_append (above below : List String) (t : FileTree) :
    at? (above ++ below) t = (at? above t).bind (at? below) := by
  induction above generalizing t with
  | nil => rfl
  | cons n above ih =>
    cases t with
    | file c => rfl
    | dir es =>
      rw [List.cons_append, at?, at?, Option.bind_assoc]
      exact congrArg _ (funext ih)

theorem at?_file {below : List String} {c : Octets} (h : below ≠ []) : at? below (file c) = none := by
  cases below with
  | nil => exact absurd rfl h
  | cons n below => rfl

/-- A directory stands in directories. -/
theorem DirAt.above {above below : List String} (h : DirAt (above ++ below) t) : DirAt above t := by
  obtain ⟨es, h⟩ := h
  rw [at?_append] at h
  obtain ⟨u, hu, h⟩ := Option.bind_eq_some_iff.1 h
  cases u with
  | dir es' => exact ⟨es', hu⟩
  | file c =>
    cases below with
    | nil => cases h
    | cons n below => cases h

theorem DirAt.not_file {c : Octets} (h : DirAt p t) : at? p t ≠ some (file c) := by
  obtain ⟨es, h⟩ := h
  rw [h]
  exact nofun

theorem DirAt.dropLast (h : DirAt p t) : DirAt p.dropLast t := by
  obtain ⟨below, hbelow⟩ := List.dropLast_prefix p
  exact DirAt.above (hbelow.symm ▸ h)

/-! ## Putting something at a place -/

theorem putAt?_eq_none_iff {names : List String} : putAt? new names t = none ↔
    ∃ above below c, names = above ++ below ∧ below ≠ [] ∧ at? above t = some (file c) := by
  induction names generalizing t with
  | nil =>
    refine ⟨fun h => by simp [putAt?] at h, ?_⟩
    rintro ⟨above, below, c, h, hb, -⟩
    exact absurd (List.append_eq_nil_iff.1 h.symm).2 hb
  | cons n ns ih =>
    cases t with
    | file c => exact ⟨fun _ => ⟨[], n :: ns, c, rfl, by simp, rfl⟩, fun _ => rfl⟩
    | dir es =>
      rw [putAt?, Option.map_eq_none_iff, ih]
      constructor
      · rintro ⟨above, below, c, rfl, hb, hat⟩
        refine ⟨n :: above, below, c, rfl, hb, ?_⟩
        cases hl : es.lookup n with
        | some t => rw [hl, Option.getD_some] at hat; rw [at?, hl, Option.bind_some, hat]
        | none =>
          -- below an entry that is missing there is no file
          rw [hl] at hat
          cases above <;> simp [at?, empty] at hat
      · rintro ⟨above, below, c, h, hb, hat⟩
        cases above with
        | nil => simp [at?] at hat
        | cons a above =>
          rw [List.cons_append, List.cons.injEq] at h
          obtain ⟨rfl, rfl⟩ := h
          rw [at?] at hat
          obtain ⟨t, ht, hat⟩ := Option.bind_eq_some_iff.1 hat
          exact ⟨above, below, c, rfl, hb, by rw [ht]; exact hat⟩

/-- Something can be put into a directory. -/
theorem exists_putAt? (new : FileTree) (n : String) {here : List String} (h : DirAt here t) :
    ∃ t', putAt? new (here ++ [n]) t = some t' := by
  rw [← Option.isSome_iff_exists, ← Option.ne_none_iff_isSome, ne_eq, putAt?_eq_none_iff]
  rintro ⟨above, below, c, hway, hne, hfile⟩
  obtain ⟨rest, rfl⟩ : above <+: here := by
    have hdrop := congrArg List.dropLast hway
    rw [List.dropLast_concat, List.dropLast_append_of_ne_nil hne] at hdrop
    exact ⟨_, hdrop.symm⟩
  exact h.above.not_file hfile

/-- What stands elsewhere is left as it is. -/
theorem at?_putAt?_apart (h : putAt? new p t = some t') (hbelow : ¬ p <+: q) (habove : ¬ q <+: p) :
    at? q t' = at? q t := by
  induction p generalizing q t t' with
  | nil => exact absurd List.nil_prefix hbelow
  | cons n ns ih =>
    cases t with
    | file c => cases h
    | dir es =>
      obtain ⟨u, hu, rfl⟩ := Option.map_eq_some_iff.1 h
      cases q with
      | nil => exact absurd List.nil_prefix habove
      | cons m q =>
        rw [at?, at?, Table.lookup_put]
        split
        · rename_i hm
          subst hm
          rw [List.prefix_cons_inj] at hbelow habove
          rw [Option.bind_some, ih hu hbelow habove]
          cases es.lookup m with
          | some v => rfl
          | none =>
            cases q with
            | nil => exact absurd List.nil_prefix habove
            | cons k q => rfl
        · rfl

/-- Above a place at which something was put stand directories. -/
theorem dirAt_putAt?_above {above below : List String}
    (h : putAt? new (above ++ below) t = some t') (hne : below ≠ []) : DirAt above t' := by
  induction above generalizing t t' with
  | nil =>
    obtain ⟨n, ns, rfl⟩ := List.exists_cons_of_ne_nil hne
    cases t with
    | file c => cases h
    | dir es =>
      obtain ⟨u, -, rfl⟩ := Option.map_eq_some_iff.1 h
      exact ⟨_, rfl⟩
  | cons m above ih =>
    cases t with
    | file c => cases h
    | dir es =>
      obtain ⟨u, hu, rfl⟩ := Option.map_eq_some_iff.1 h
      obtain ⟨es', hes'⟩ := ih hu
      exact ⟨es', by rw [at?, Table.lookup_put, if_pos rfl, Option.bind_some, hes']⟩

/-- Files that do not stand at or below the place are left as they are, … -/
theorem file_putAt?_iff (h : putAt? new p t = some t') (hbelow : ¬ p <+: q) {c : Octets} :
    at? q t' = some (file c) ↔ at? q t = some (file c) := by
  by_cases habove : q <+: p
  · obtain ⟨rest, rfl⟩ := habove
    have hne : rest ≠ [] := by
      rintro rfl
      rw [List.append_nil] at hbelow
      exact hbelow List.prefix_rfl
    refine iff_of_false (dirAt_putAt?_above h hne).not_file fun hfile => ?_
    rw [putAt?_eq_none_iff.2 ⟨q, rest, c, rfl, hne, hfile⟩] at h
    cases h
  · rw [at?_putAt?_apart h hbelow habove]

/-- … and so are directories. -/
theorem DirAt.putAt? (hdir : DirAt q t) (h : putAt? new p t = some t') (hbelow : ¬ p <+: q) :
    DirAt q t' := by
  by_cases habove : q <+: p
  · obtain ⟨rest, rfl⟩ := habove
    refine dirAt_putAt?_above h ?_
    rintro rfl
    rw [List.append_nil] at hbelow
    exact hbelow List.prefix_rfl
  · rw [DirAt, at?_putAt?_apart h hbelow habove]
    exact hdir

/-- A new entry of a directory is the only directory that is new. -/
theorem dirAt_of_putAt? {here : List String} {n : String} (hdir : DirAt here t)
    (h : FileTree.putAt? new (here ++ [n]) t = some t') (hbelow : ¬ here ++ [n] <+: q)
    (hq : DirAt q t') : DirAt q t := by
  by_cases habove : q <+: here ++ [n]
  · rcases List.prefix_concat_iff.1 habove with rfl | ⟨rest, rfl⟩
    · exact absurd List.prefix_rfl hbelow
    · exact hdir.above
  · rwa [DirAt, at?_putAt?_apart h hbelow habove] at hq

/-! ## Taking something away again -/

theorem remove_cons {m : String} {ns : List String} (hne : ns ≠ [])
    {es : List (String × FileTree)} {u : FileTree} (h : es.lookup m = some u) :
    remove (m :: ns) (dir es) = dir (Table.put m (remove ns u) es) := by
  obtain ⟨n, ns, rfl⟩ := List.exists_cons_of_ne_nil hne
  rw [remove, h]
  exact nofun

/-- A new entry that is taken away again leaves the tree as it was. -/
theorem remove_putAt? {here : List String} {n : String} (hdir : DirAt here t)
    (hnone : at? (here ++ [n]) t = none) (h : putAt? new (here ++ [n]) t = some t') :
    remove (here ++ [n]) t' = t := by
  induction here generalizing t t' with
  | nil =>
    obtain ⟨es, hes⟩ := hdir
    obtain rfl := Option.some.inj hes
    obtain ⟨u, -, rfl⟩ := Option.map_eq_some_iff.1 h
    have hlookup : es.lookup n = none := by
      cases hl : es.lookup n with
      | none => rfl
      | some v => rw [List.nil_append, at?, hl] at hnone; cases hnone
    have hkeys : ∀ e ∈ es, e.1 ≠ n := fun e he h =>
      absurd (List.lookup_eq_none_iff.1 hlookup e he) (by simp [h])
    have hnew : n ∉ es.map Prod.fst := fun hmem => by
      obtain ⟨e, he, rfl⟩ := List.mem_map.1 hmem
      exact hkeys e he rfl
    have hkept : es.filter (fun e => e.1 ≠ n) = es :=
      List.filter_eq_self.2 fun e he => decide_eq_true (hkeys e he)
    rw [Table.put_of_notMem u hnew, List.nil_append, remove, List.filter_append, hkept]
    simp
  | cons m here ih =>
    cases t with
    | file c =>
      obtain ⟨es, hes⟩ := hdir
      cases hes
    | dir es =>
      obtain ⟨es', hes'⟩ := hdir
      obtain ⟨v, hv, hes'⟩ := Option.bind_eq_some_iff.1 hes'
      obtain ⟨u, hu, rfl⟩ := Option.map_eq_some_iff.1 h
      rw [hv, Option.getD_some] at hu
      rw [List.cons_append, at?, hv, Option.bind_some] at hnone
      have hlookup : (Table.put m u es).lookup m = some u := by
        rw [Table.lookup_put, if_pos rfl]
      rw [List.cons_append, remove_cons (by simp) hlookup, ih ⟨es', hes'⟩ hnone hu,
        Table.put_put, Table.put_of_lookup hv]

end DeclGraph.FileTree
