/-
  The endings of names, and the texts of paths.

  A name is cut at its last dot, unless it begins or ends there.

  * `Path.splitName_snd_eq_iff`: a name has an ending if something stands before it;
  * `Path.exists_toText_parent`: the text of a path begins with that of its parent.
-/
import DeclGraph.FileTree
import Mathlib.Data.List.Induction

namespace DeclGraph.Path

theorem names_top_join (p : Path) : (top.join p).names = p.names := by
  rw [join]
  split <;> rfl

theorem splitName_append {stem ending : String} (hstem : stem ≠ "") (hne : ending ≠ "")
    (hdot : '.' ∉ ending.toList) :
    splitName (stem ++ ("." ++ ending)) = (stem, "." ++ ending) := by
  have hlist : (stem ++ ("." ++ ending)).toList = stem.toList ++ '.' :: ending.toList := by
    simp only [String.toList_append]
    rfl
  have hlast : (stem.toList ++ '.' :: ending.toList).reverse.takeWhile (· ≠ '.') =
      ending.toList.reverse := by
    rw [List.reverse_append, List.reverse_cons, List.append_assoc,
      List.takeWhile_append_of_pos fun c hc => ?_]
    · simp
    · exact decide_eq_true fun h => hdot (h ▸ List.mem_reverse.1 hc)
  have hpos : 0 < stem.toList.length :=
    List.length_pos_iff.2 fun h => hstem (String.toList_inj.1 h)
  have hcut : stem.toList.length + (ending.toList.length + 1) - ending.toList.length - 1 =
      stem.toList.length := by omega
  unfold splitName
  simp only [hlist, hlast, List.length_reverse, List.length_append, List.length_cons, hcut]
  rw [if_pos ⟨by omega, fun h => hne (String.toList_inj.1 (List.reverse_eq_nil_iff.1 h))⟩,
    List.take_left, List.drop_left, String.ofList_toList]
  refine Prod.ext rfl (String.toList_inj.1 ?_)
  rw [String.toList_ofList, String.toList_append]
  rfl

/-- What ends a name, from its last dot on, stands after something else. -/
theorem exists_stem {n ending : String} (h : (splitName n).2 = ending) (hne : ending ≠ "") :
    ∃ stem, stem ≠ "" ∧ n = stem ++ ending := by
  unfold splitName at h
  dsimp only at h
  split at h
  · rename_i hcut
    generalize hat : n.toList.length - _ - 1 = at_ at h
    refine ⟨String.ofList (n.toList.take at_), fun hnil => ?_, String.toList_inj.1 ?_⟩
    · have hlength := congrArg (fun s => s.toList.length) hnil
      simp only [String.toList_ofList, List.length_take] at hlength
      change min _ _ = 0 at hlength
      omega
    · rw [String.toList_append, ← h, String.toList_ofList, String.toList_ofList,
        List.take_append_drop]
  · exact absurd h.symm hne

/-- **A name has an ending exactly if something stands before it.** -/
theorem splitName_snd_eq_iff {n ending : String} (hne : ending ≠ "")
    (hdot : '.' ∉ ending.toList) :
    (splitName n).2 = "." ++ ending ↔ ∃ stem, stem ≠ "" ∧ n = stem ++ ("." ++ ending) := by
  constructor
  · intro h
    refine exists_stem h fun hnil => ?_
    have hlength := congrArg (fun s => s.toList.length) hnil
    rw [String.toList_append, List.length_append] at hlength
    change 1 + _ = 0 at hlength
    omega
  · rintro ⟨stem, hstem, rfl⟩
    rw [splitName_append hstem hne hdot]

/-! ## Texts -/

theorem exists_intercalate_concat {α : Type} (sep : List α) (xs : List (List α)) (x : List α) :
    ∃ rest, sep.intercalate (xs ++ [x]) = sep.intercalate xs ++ rest := by
  induction xs with
  | nil => exact ⟨x, by simp [List.intercalate]⟩
  | cons y ys ih =>
    obtain ⟨rest, hrest⟩ := ih
    cases ys with
    | nil => exact ⟨sep ++ x, by simp [List.intercalate]⟩
    | cons z zs =>
      refine ⟨rest, ?_⟩
      simp only [List.intercalate, List.cons_append, List.intersperse_cons_cons,
        List.flatten_cons] at hrest ⊢
      rw [hrest]
      simp only [List.append_assoc]

variable {p : Path}

/-- The text of a path begins with that of its parent, unless this is a dot. -/
theorem exists_toText_parent (p : Path) : p.parent.toText = "." ∨
    ∃ rest, p.toText.toList = p.parent.toText.toList ++ rest := by
  obtain ⟨root, names⟩ := p
  cases names using List.reverseRecOn with
  | nil => exact Or.inr ⟨[], (List.append_nil _).symm⟩
  | append_singleton names n =>
    rw [parent, List.dropLast_concat]
    by_cases hdot : root = "" ∧ names = []
    · exact Or.inl (by rw [toText, if_pos hdot])
    · obtain ⟨rest, hrest⟩ := exists_intercalate_concat "/".toList (names.map String.toList) n.toList
      refine Or.inr ⟨rest, ?_⟩
      simp only [toText, if_neg hdot, List.append_eq_nil_iff, List.cons_ne_self, and_false, if_false,
        String.toList_append, String.toList_intercalate, List.map_append, List.map_cons,
        List.map_nil, hrest, List.append_assoc]

theorem hasNull_parent (h : p.hasNull = false) : p.parent.hasNull = false := by
  rcases exists_toText_parent p with hdot | ⟨rest, hrest⟩
  · rw [hasNull, hdot]
    rfl
  · rw [hasNull, hrest, List.contains_append, Bool.or_eq_false_iff] at h
    exact h.1

theorem isTooLong_parent (h : p.isTooLong = false) : p.parent.isTooLong = false := by
  rcases exists_toText_parent p with hdot | ⟨rest, hrest⟩
  · rw [isTooLong, hdot]
    rfl
  · rw [isTooLong, decide_eq_false_iff_not, Nat.not_lt, Utf8.encode, hrest, List.flatMap_append,
      List.length_append] at h
    exact decide_eq_false (Nat.not_lt.2 (Nat.le_trans (Nat.le_add_right _ _) h))

/-- A name is not longer than that of the new file through which it is written. -/
theorem isLongName_of_draftForm {n : String} (h : isLongName (FileTree.draftForm n) = false) :
    isLongName n = false := by
  rw [isLongName, decide_eq_false_iff_not, Nat.not_lt, FileTree.draftForm, Utf8.encode,
    String.toList_append, String.toList_append, List.flatMap_append, List.flatMap_append,
    List.length_append, List.length_append] at h
  refine decide_eq_false (Nat.not_lt.2 ?_)
  rw [Utf8.encode]
  omega

end DeclGraph.Path
