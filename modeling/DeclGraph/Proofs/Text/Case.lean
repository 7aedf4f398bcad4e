/-
  The lower case of a part of a text.

  Every character but one has a lower case of its own, whatever stands around it.  A capital
  sigma is put in lower case by its place in the word, and a part of a text may end the word
  earlier, or begin it later, than the text does.

  Main result: `contains_toLower`: the lower case of a text holds that of a part, if each capital
  sigma of the part is final in both or in none.
-/
import DeclGraph.Proofs.Text.Basic
import DeclGraph.Text.Case

namespace DeclGraph.Text

/-! ## Final sigmas -/

/-- Whether a capital sigma that stands between two parts of a text is final. -/
def IsFinal (before after : List Char) : Prop :=
  meetsCased before.reverse = true ∧ meetsCased after = false

/-- Whether each capital sigma of a part of a text is final in the part exactly if it is in the
    text, which goes on before and after the part. -/
def KeepsSigmas (before part after : List Char) : Prop :=
  ∀ xs ys, part = xs ++ 'Σ' :: ys → (IsFinal xs ys ↔ IsFinal (before ++ xs) (ys ++ after))

theorem keepsSigmas_of_notMem {part : List Char} (h : 'Σ' ∉ part) (before after : List Char) :
    KeepsSigmas before part after := by
  rintro xs ys rfl
  exact absurd (List.mem_append_right xs List.mem_cons_self) h

/-! ## Lower case -/

/-- The lower case of a character between two parts of a text, the first of them from its end to
    its start. -/
def lowered (before : List Char) (c : Char) (rest : List Char) : List Char :=
  if c = 'Σ' then [if meetsCased before && !meetsCased rest then 'ς' else 'σ']
  else if c = 'İ' then ['i', '\u0307']
  else [lowerChar c]

theorem lowerFrom_cons (before : List Char) (c : Char) (rest : List Char) :
    lowerFrom before (c :: rest) = lowered before c rest ++ lowerFrom (c :: before) rest := rfl

/-- Only a capital sigma depends on what stands around it. -/
theorem lowered_congr {c : Char} {before rest before' rest' : List Char}
    (h : c = 'Σ' → (IsFinal before.reverse rest ↔ IsFinal before'.reverse rest')) :
    lowered before c rest = lowered before' c rest' := by
  unfold lowered
  split
  · rename_i hc
    have hfinal := h hc
    simp only [IsFinal, List.reverse_reverse] at hfinal
    have hsame : (meetsCased before && !meetsCased rest) =
        (meetsCased before' && !meetsCased rest') := by
      rw [Bool.eq_iff_iff]
      simpa only [Bool.and_eq_true, Bool.not_eq_true'] using hfinal
    rw [hsame]
  · rfl

/-- The lower case of a text goes on with that of its rest. -/
theorem exists_lowerFrom_append (before xs ys : List Char) :
    ∃ front, lowerFrom before (xs ++ ys) = front ++ lowerFrom (xs.reverse ++ before) ys := by
  induction xs generalizing before with
  | nil => exact ⟨[], rfl⟩
  | cons c xs ih =>
    obtain ⟨front, hfront⟩ := ih (c :: before)
    refine ⟨lowered before c (xs ++ ys) ++ front, ?_⟩
    rw [List.cons_append, lowerFrom_cons, hfront, List.append_assoc, List.reverse_cons,
      List.append_assoc]
    rfl

/-- A part of a text is put in lower case as it is on its own, from any of its places on. -/
theorem lowerFrom_append {before part after : List Char} (h : KeepsSigmas before part after)
    {xs ys : List Char} (hpart : part = xs ++ ys) :
    lowerFrom (xs.reverse ++ before.reverse) (ys ++ after) =
      lowerFrom xs.reverse ys ++ lowerFrom (part.reverse ++ before.reverse) after := by
  induction ys generalizing xs with
  | nil =>
    rw [hpart, List.append_nil]
    rfl
  | cons c ys ih =>
    have hstep : part = (xs ++ [c]) ++ ys := by rw [hpart, List.append_assoc]; rfl
    have hrest := ih hstep
    rw [List.reverse_append, List.reverse_singleton, List.singleton_append,
      List.cons_append] at hrest
    have hchar : lowered (xs.reverse ++ before.reverse) c (ys ++ after) =
        lowered xs.reverse c ys := by
      refine lowered_congr fun hc => ?_
      subst hc
      rw [← List.reverse_append, List.reverse_reverse, List.reverse_reverse]
      exact (h xs ys hpart).symm
    rw [List.cons_append, lowerFrom_cons, hrest, hchar, lowerFrom_cons, List.append_assoc]

/-- **The lower case of a text holds that of its part**, if no capital sigma of the part is final
    in one of them only. -/
theorem contains_toLower {before part after : String}
    (h : KeepsSigmas before.toList part.toList after.toList) :
    contains (toLower (before ++ part ++ after)) (toLower part) = true := by
  rw [contains_iff, toLower, toLower, String.toList_ofList, String.toList_ofList,
    String.toList_append, String.toList_append, List.append_assoc]
  obtain ⟨front, hfront⟩ :=
    exists_lowerFrom_append [] before.toList (part.toList ++ after.toList)
  rw [List.append_nil] at hfront
  have hpart := lowerFrom_append h (List.nil_append part.toList).symm
  rw [List.reverse_nil, List.nil_append] at hpart
  rw [hfront, hpart]
  exact ⟨front, _, List.append_assoc _ _ _⟩

end DeclGraph.Text
