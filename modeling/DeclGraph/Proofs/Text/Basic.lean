/-
  Texts that begin with another text or hold it.
-/
import DeclGraph.Text.Basic

namespace DeclGraph.Text

theorem startsWith_iff {s head : String} : startsWith s head ↔ ∃ rest, s = head ++ rest := by
  rw [startsWith, List.isPrefixOf_iff_prefix]
  constructor
  · rintro ⟨rest, h⟩
    refine ⟨String.ofList rest, String.toList_inj.1 ?_⟩
    rw [String.toList_append, String.toList_ofList, h]
  · rintro ⟨rest, rfl⟩
    exact ⟨rest.toList, String.toList_append.symm⟩

theorem dropPrefix_of_not_startsWith {head s : String} (h : startsWith s head = false) :
    dropPrefix head s = s := by
  have hnone : ∀ hs cs : List Char, hs.isPrefixOf cs = false → after? hs cs = none := by
    intro hs
    induction hs with
    | nil => intro cs h; simp at h
    | cons c hs ih =>
      intro cs h
      cases cs with
      | nil => rfl
      | cons d cs =>
        rw [after?]
        split
        · rename_i hcd
          exact ih cs (by simpa [List.isPrefixOf, hcd] using h)
        · rfl
  rw [dropPrefix, hnone _ _ h]

theorem dropPrefix_append (head s : String) : dropPrefix head (head ++ s) = s := by
  have hafter : ∀ hs cs : List Char, after? hs (hs ++ cs) = some cs := by
    intro hs cs
    induction hs with
    | nil => rfl
    | cons c hs ih => rw [List.cons_append, after?, if_pos rfl, ih]
  rw [dropPrefix, String.toList_append, hafter]
  exact String.ofList_toList

/-- Taking off a beginning that is not empty leaves only those texts as they are that do not
    begin with it. -/
theorem dropPrefix_eq_self_iff {head s : String} (hne : head ≠ "") :
    dropPrefix head s = s ↔ startsWith s head = false := by
  refine ⟨fun h => ?_, dropPrefix_of_not_startsWith⟩
  rw [← Bool.not_eq_true, startsWith_iff]
  rintro ⟨rest, rfl⟩
  rw [dropPrefix_append] at h
  have hlength := congrArg (fun s => s.toList.length) h
  rw [String.toList_append, List.length_append] at hlength
  have hnil : head.toList = [] := List.eq_nil_of_length_eq_zero (by omega)
  exact hne (String.toList_inj.1 hnil)

theorem occursIn_iff {needle cs : List Char} : occursIn needle cs = true ↔ needle <:+: cs := by
  induction cs with
  | nil => rw [occursIn, List.isEmpty_iff, List.infix_nil]
  | cons c cs ih =>
    rw [occursIn, Bool.or_eq_true, List.isPrefixOf_iff_prefix, ih, List.infix_cons_iff]

theorem contains_iff {s needle : String} : contains s needle = true ↔ needle.toList <:+: s.toList :=
  occursIn_iff

theorem contains_self (s : String) : contains s s = true := contains_iff.2 List.infix_rfl

theorem contains_empty (s : String) : contains s "" = true := contains_iff.2 List.nil_infix

end DeclGraph.Text
