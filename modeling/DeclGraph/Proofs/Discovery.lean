/-
  The source units of a code base have distinct ids.

  * `FileTree.Regular`: the entries of every directory have distinct names, none of which is
    empty or holds a slash;
  * `intercalate_inj`: a place below a directory is known by its text;
  * `ascending_ids_findUnits`: the ids of the units of a regular directory ascend.
-/
import DeclGraph.Discovery
import DeclGraph.Proofs.Table
import DeclGraph.Proofs.Text.Basic
import Mathlib.Data.String.Basic

namespace DeclGraph

/-! ## Regular trees -/

/-- Whether a text can be the name of an entry of a directory. -/
def IsEntryName (name : String) : Prop := name ≠ "" ∧ '/' ∉ name.toList

instance : DecidablePred IsEntryName := fun name =>
  inferInstanceAs (Decidable (name ≠ "" ∧ '/' ∉ name.toList))

namespace FileTree

/-- The entries of every directory have distinct names. -/
inductive Regular : FileTree → Prop where
  | file (content : Octets) : Regular (.file content)
  | dir {entries : List (String × FileTree)} (hnodup : (entries.map Prod.fst).Nodup)
      (hnames : ∀ e ∈ entries, IsEntryName e.1) (htrees : ∀ e ∈ entries, Regular e.2) :
    Regular (.dir entries)

theorem Regular.at? {names : List String} {t t' : FileTree} (ht : t.Regular)
    (h : FileTree.at? names t = some t') : t'.Regular := by
  induction names generalizing t with
  | nil =>
    obtain rfl := Option.some.inj h
    exact ht
  | cons n ns ih =>
    cases ht with
    | file content => cases h
    | dir hnodup _ htrees =>
      obtain ⟨u, hu, h⟩ := Option.bind_eq_some_iff.1 h
      exact ih (htrees (n, u) ((Table.lookup_eq_some_iff_mem hnodup).1 hu)) h

theorem Regular.entriesAt? {path : Path} {t : FileTree} {entries : List (String × FileTree)}
    (ht : t.Regular) (h : t.entriesAt? path = some entries) : Regular (.dir entries) := by
  unfold FileTree.entriesAt? at h
  split at h
  · rename_i entries' hat
    obtain rfl := Option.some.inj h
    obtain ⟨place, -, hat⟩ := Option.bind_eq_some_iff.1 hat
    exact ht.at? hat
  · cases h

end FileTree

/-! ## Places of files -/

open FileTree

mutual

/-- A file of a regular tree stands below it. -/
theorem exists_of_mem_filePlaces {skip : List String} {p : List String} :
    ∀ {t : FileTree} {place : List String}, t.Regular → p ∈ filePlaces skip place t →
      ∃ names, p = place ++ names ∧ ∀ n ∈ names, IsEntryName n
  | .file _, place, _, h => by
    rw [filePlaces, List.mem_singleton] at h
    exact ⟨[], by rw [h, List.append_nil], by simp⟩
  | .dir entries, place, .dir _ hnames htrees, h => by
    rw [filePlaces] at h
    obtain ⟨e, -, names, hp, hall⟩ := exists_of_mem_entryPlaces hnames htrees h
    exact ⟨e.1 :: names, hp, hall⟩

theorem exists_of_mem_entryPlaces {skip : List String} {p : List String} :
    ∀ {entries : List (String × FileTree)} {place : List String},
      (∀ e ∈ entries, IsEntryName e.1) → (∀ e ∈ entries, Regular e.2) →
      p ∈ entryPlaces skip place entries →
      ∃ e ∈ entries, ∃ names, p = place ++ e.1 :: names ∧ ∀ n ∈ e.1 :: names, IsEntryName n
  | [], _, _, _, h => by cases h
  | (name, t) :: rest, place, hnames, htrees, h => by
    rw [entryPlaces, List.mem_append] at h
    rcases h with h | h
    · split at h
      · cases h
      · obtain ⟨names, hp, hall⟩ := exists_of_mem_filePlaces (htrees _ List.mem_cons_self) h
        refine ⟨(name, t), List.mem_cons_self, names, by simpa using hp, ?_⟩
        exact List.forall_mem_cons.2 ⟨hnames _ List.mem_cons_self, hall⟩
    · obtain ⟨e, he, hp⟩ := exists_of_mem_entryPlaces
        (fun e he => hnames e (List.mem_cons_of_mem _ he))
        (fun e he => htrees e (List.mem_cons_of_mem _ he)) h
      exact ⟨e, List.mem_cons_of_mem _ he, hp⟩

end

mutual

theorem nodup_filePlaces {skip : List String} : ∀ {t : FileTree} {place : List String},
    t.Regular → (filePlaces skip place t).Nodup
  | .file _, place, _ => List.pairwise_singleton _ place
  | .dir entries, place, .dir hnodup hnames htrees => by
    rw [filePlaces]
    exact nodup_entryPlaces hnodup hnames htrees

theorem nodup_entryPlaces {skip : List String} :
    ∀ {entries : List (String × FileTree)} {place : List String},
      (entries.map Prod.fst).Nodup → (∀ e ∈ entries, IsEntryName e.1) →
      (∀ e ∈ entries, Regular e.2) → (entryPlaces skip place entries).Nodup
  | [], _, _, _, _ => List.nodup_nil
  | (name, t) :: rest, place, hnodup, hnames, htrees => by
    rw [List.map_cons, List.nodup_cons] at hnodup
    have hnames' : ∀ e ∈ rest, IsEntryName e.1 := fun e he => hnames e (List.mem_cons_of_mem _ he)
    have htrees' : ∀ e ∈ rest, Regular e.2 := fun e he => htrees e (List.mem_cons_of_mem _ he)
    rw [entryPlaces, List.nodup_append]
    refine ⟨?_, nodup_entryPlaces hnodup.2 hnames' htrees', ?_⟩
    · split
      · exact List.nodup_nil
      · exact nodup_filePlaces (htrees _ List.mem_cons_self)
    · -- the places of other entries have another name after the place of the directory
      rintro p hp q hq rfl
      split at hp
      · cases hp
      · obtain ⟨names, hfirst, -⟩ := exists_of_mem_filePlaces (htrees _ List.mem_cons_self) hp
        obtain ⟨e, he, names', hrest, -⟩ := exists_of_mem_entryPlaces hnames' htrees' hq
        rw [hfirst, List.append_assoc, List.append_cancel_left_eq] at hrest
        have hname : name = e.1 := (List.cons.inj hrest).1
        exact hnodup.1 (List.mem_map.2 ⟨e, he, hname.symm⟩)

end

/-! ## Texts of places -/

/-- **A place is known by its text,** since no name holds a slash. -/
theorem intercalate_inj {p q : List String} (hp : ∀ n ∈ p, IsEntryName n)
    (hq : ∀ n ∈ q, IsEntryName n) (hp₀ : p ≠ []) (hq₀ : q ≠ [])
    (h : "/".intercalate p = "/".intercalate q) : p = q := by
  have hchars := congrArg (fun s : String => List.splitOn '/' s.toList) h
  simp only [String.toList_intercalate] at hchars
  have hsplit (r : List String) (hr : ∀ n ∈ r, IsEntryName n) (hr₀ : r ≠ []) :
      List.splitOn '/' (List.intercalate "/".toList (r.map String.toList)) =
        r.map String.toList := by
    refine List.splitOn_intercalate '/' (fun cs hcs => ?_) (by simpa using hr₀)
    obtain ⟨n, hn, rfl⟩ := List.mem_map.1 hcs
    exact (hr n hn).2
  rw [hsplit p hp hp₀, hsplit q hq hq₀] at hchars
  exact List.map_injective_iff.2 (fun _ _ => String.toList_inj.1) hchars

/-- The text of a place does not begin with a slash. -/
theorem startsWith_intercalate {name : String} {names : List String} (h : IsEntryName name)
    (tail : String) : Text.startsWith ("/".intercalate (name :: names)) ("/" ++ tail) = false := by
  have hfront : ∃ rest, ("/".intercalate (name :: names)).toList = name.toList ++ rest := by
    rw [String.toList_intercalate]
    cases names with
    | nil => exact ⟨[], by simp⟩
    | cons n names =>
      rw [List.map_cons, List.map_cons, List.intercalate_cons_cons, List.append_assoc]
      exact ⟨_, rfl⟩
  obtain ⟨rest, hrest⟩ := hfront
  obtain ⟨hne, hslash⟩ := h
  rw [Bool.eq_false_iff]
  intro hstarts
  obtain ⟨rest', hrest'⟩ := Text.startsWith_iff.1 hstarts
  rw [hrest', String.toList_append, String.toList_append] at hrest
  cases hname : name.toList with
  | nil => exact hne (String.toList_eq_nil_iff.1 hname)
  | cons c cs =>
    rw [hname] at hrest hslash
    obtain rfl : '/' = c := (List.cons.inj hrest).1
    exact hslash List.mem_cons_self

/-! ## Ids of units -/

theorem id_of_unitAt? {root : Path} {enabled : List Dialect} {place : List String}
    {u : SourceUnit} (h : unitAt? root enabled place = some u) : u.id = "/".intercalate place := by
  obtain ⟨dialect, -, h⟩ := Option.bind_eq_some_iff.1 h
  split at h
  · rw [← Option.some.inj h]
  · cases h

section

variable {root : Path} {entries : List (String × FileTree)} {enabled : List Dialect}
  {skip : List String}

theorem pairwise_ids (h : Regular (.dir entries)) :
    ((entryPlaces skip [] entries).filterMap (unitAt? root enabled)).Pairwise (·.id ≠ ·.id) := by
  cases h with | dir hnodup hnames htrees =>
  have hplaces : (entryPlaces skip [] entries).Pairwise
      fun p q => "/".intercalate p ≠ "/".intercalate q := by
    refine (nodup_entryPlaces hnodup hnames htrees).imp_of_mem fun hp hq hne heq => hne ?_
    obtain ⟨e, -, names, rfl, hpnames⟩ := exists_of_mem_entryPlaces hnames htrees hp
    obtain ⟨e', -, names', rfl, hqnames⟩ := exists_of_mem_entryPlaces hnames htrees hq
    exact intercalate_inj hpnames hqnames (by simp) (by simp) heq
  refine hplaces.filterMap _ fun p q hne u hu v hv => ?_
  rw [id_of_unitAt? hu, id_of_unitAt? hv]
  exact hne

/-- **The ids of the units of a code base ascend,** so that they are distinct. -/
theorem ascending_ids_findUnits (h : Regular (.dir entries)) :
    ((findUnits root entries enabled skip).map SourceUnit.id).Pairwise (· < ·) := by
  have hsorted : (findUnits root entries enabled skip).Pairwise fun u v => u.id ≤ v.id := by
    refine (List.pairwise_mergeSort (fun a b c hab hbc => ?_) (fun a b => ?_) _).imp of_decide_eq_true
    · exact decide_eq_true ((of_decide_eq_true hab).trans (of_decide_eq_true hbc))
    · rw [Bool.or_eq_true, decide_eq_true_eq, decide_eq_true_eq]
      exact le_total a.id b.id
  have hdistinct : (findUnits root entries enabled skip).Pairwise (·.id ≠ ·.id) :=
    ((List.mergeSort_perm _ _).pairwise_iff fun h => h.symm).2 (pairwise_ids h)
  rw [List.pairwise_map]
  exact (hsorted.and hdistinct).imp fun h => lt_of_le_of_ne h.1 h.2

/-- The ids of units are paths below the directory of the code base. -/
theorem startsWith_of_mem_findUnits (h : Regular (.dir entries)) {u : SourceUnit}
    (hu : u ∈ findUnits root entries enabled skip) (tail : String) :
    Text.startsWith u.id ("/" ++ tail) = false := by
  cases h with | dir _ hnames htrees =>
  obtain ⟨place, hplace, hunit⟩ := List.mem_filterMap.1 (List.mem_mergeSort.1 hu)
  obtain ⟨e, -, names, rfl, hall⟩ := exists_of_mem_entryPlaces hnames htrees hplace
  rw [id_of_unitAt? hunit]
  exact startsWith_intercalate (hall e.1 List.mem_cons_self) tail

end

end DeclGraph
