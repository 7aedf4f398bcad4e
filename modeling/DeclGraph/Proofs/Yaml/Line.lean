/-
  Plain scalars on one line.

  Of a line that begins a plain scalar a front part is read, up to the first blank or colon that ends
  it.

  * `plain_line`: the part that is read does not depend on the lines after it;
  * `Phrase.plainText`: the whole line is read only if nothing in it ends a scalar.
-/
import DeclGraph.Proofs.Yaml.Plain

namespace DeclGraph.Yaml

open Cursor

variable {flow : Bool} {cs word rest u v x : List Char}

/-! ## Texts that nothing ends -/

/-- Texts are joined, if no comment begins where they meet. -/
theorem PlainText.append (hu : PlainText flow u) (hv : PlainText flow v)
    (hjoint : ∀ a ∈ u.getLast?, ∀ b ∈ v.head?, ¬ (a = ' ' ∧ b = '#')) : PlainText flow (u ++ v) where
  blanks y hy := (List.mem_append.1 hy).elim (hu.blanks y) (hv.blanks y)
  colons l r hlr := by
    rcases List.append_eq_append_iff.1 hlr with ⟨m, rfl, hm⟩ | ⟨m, rfl, hm⟩
    · exact hv.colons m r hm
    · cases m with
      | nil => exact hv.colons [] r hm.symm
      | cons y m =>
        obtain ⟨rfl, rfl⟩ := List.cons.inj hm
        exact atGap_append (hu.colons l m rfl) v
  hashes := List.isChain_append.2 ⟨hu.hashes, hv.hashes, hjoint⟩
  marks hflow y hy := (List.mem_append.1 hy).elim (hu.marks hflow y) (hv.marks hflow y)

theorem IsWord.plainText (h : IsWord flow word) : PlainText flow word where
  blanks y hy hgap := by
    rw [h.solid y hy] at hgap
    cases hgap
  colons := h.colons
  hashes := by
    refine (List.pairwise_of_forall_mem_list fun a ha b _ hab => ?_).isChain
    have hgap := h.solid a ha
    rw [hab.1] at hgap
    exact absurd hgap (by decide)
  marks := h.marks

theorem plainText_spaces (n : Nat) : PlainText flow (List.replicate n ' ') where
  blanks y hy _ := (List.mem_replicate.1 hy).2
  colons l r hlr := by
    have hmem : ':' ∈ List.replicate n ' ' := by rw [hlr]; simp
    exact absurd (List.mem_replicate.1 hmem).2 (by decide)
  hashes := List.isChain_replicate_of_rel n (by decide)
  marks _ y hy := by
    rw [(List.mem_replicate.1 hy).2]
    decide

/-- **Nothing ends a phrase.** -/
theorem Phrase.plainText {w : List Char} (h : Phrase false cs w) :
    PlainText false cs ∧ cs.getLast? ≠ some ' ' := by
  induction h with
  | word hne hword =>
    refine ⟨hword.plainText, fun hlast => ?_⟩
    exact absurd (hword.solid ' ' (List.mem_of_getLast? hlast)) (by decide)
  | @spaces word cs w n hne hword hhash h ih =>
    have hcs : cs ≠ [] := by
      obtain ⟨y, ys, rfl, -⟩ := h.exists_head
      intro hnil
      have hhead := h.head?_eq
      rw [hnil] at hhead
      cases hhead
    have hspaces : PlainText false (List.replicate (n + 1) ' ' ++ cs) :=
      (plainText_spaces _).append ih.1 fun a _ b hb hab => hhash (by rw [h.head?_eq, ← hab.2]; exact hb)
    refine ⟨hword.plainText.append hspaces ?_, ?_⟩
    · rintro a - b ⟨⟩ hab
      exact absurd hab.2 (by decide)
    · rw [← List.append_assoc, List.getLast?_append_of_ne_nil _ hcs]
      exact ih.2
  | newline hflow => cases hflow

/-! ## Words of a line -/

theorem eq_of_plainRun (h : plainRun flow cs = (word, rest)) : cs = word ++ rest := by
  induction cs generalizing word with
  | nil => cases h; rfl
  | cons y cs ih =>
    rw [plainRun] at h
    split at h
    · cases h
      rfl
    · obtain ⟨rfl, rfl⟩ := Prod.mk.inj h
      exact congrArg (y :: ·) (ih rfl)

/-- The end of a line ends a word. -/
theorem plainRun_line (h : plainRun false cs = (word, rest)) (x : List Char) :
    plainRun false (cs ++ '\n' :: x) = (word, rest ++ '\n' :: x) := by
  induction cs generalizing word with
  | nil => cases h; rfl
  | cons y cs ih =>
    have hgap : atGap (cs ++ '\n' :: x) = atGap cs := by cases cs <;> rfl
    rw [plainRun] at h
    rw [List.cons_append, plainRun, hgap]
    simp only [Bool.false_and, Bool.or_false] at h ⊢
    split at h
    · rename_i hstop
      cases h
      rw [if_pos hstop]
      rfl
    · rename_i hgo
      obtain ⟨rfl, rfl⟩ := Prod.mk.inj h
      rw [if_neg hgo, ih rfl]

theorem isWord_nil : IsWord false [] where
  solid := nofun
  colons := fun u _ h =>
    absurd h.symm (List.append_ne_nil_of_right_ne_nil u (List.cons_ne_nil _ _))
  marks := nofun

/-- A word that a blank ends. -/
theorem isWord_of_plainRun (h : plainRun false cs = (word, rest)) (hrest : atGap rest = true) :
    IsWord false word := by
  induction cs generalizing word with
  | nil => cases h; exact isWord_nil
  | cons y cs ih =>
    obtain ⟨more, rest', hrun⟩ : ∃ more rest', plainRun false cs = (more, rest') := ⟨_, _, rfl⟩
    rw [plainRun, hrun] at h
    split at h
    · cases h
      exact isWord_nil
    · rename_i hgo
      obtain ⟨rfl, rfl⟩ := Prod.mk.inj h
      have hmore := ih hrun
      simp only [Bool.false_and, Bool.or_false, Bool.or_eq_true, Bool.and_eq_true, beq_iff_eq,
        not_or, not_and] at hgo
      refine ⟨List.forall_mem_cons.2 ⟨eq_false_of_ne_true hgo.1, hmore.solid⟩, ?_,
        fun h => absurd h Bool.false_ne_true⟩
      rintro (- | ⟨z, u⟩) v huv
      · obtain ⟨rfl, rfl⟩ := List.cons.inj huv
        have hnext := eq_false_of_ne_true (hgo.2 rfl)
        rw [eq_of_plainRun hrun] at hnext
        cases more with
        | nil => exact absurd hrest (by rw [show atGap rest' = false from hnext]; decide)
        | cons z more => exact hnext
      · exact hmore.colons u v (List.cons.inj huv).2

/-! ## Reading -/

/-- Whether a scalar goes on with a text after some spaces. -/
def GoesOn (n : Nat) (ys : List Char) : Prop :=
  0 < n ∧ ys.head? ≠ some '#' ∧ (plainRun false ys).1 ≠ []

/-- A line on which a scalar does not go on. -/
theorem stops_of_not_goesOn {n : Nat} {ys : List Char} (hys : ys.head? ≠ some ' ')
    (hbreaks : ∀ y ∈ ys, isBreak y = false) (h : ¬ GoesOn n ys) (hx : Flush x) {c : Cursor}
    (hc : c.rest = List.replicate n ' ' ++ (ys ++ '\n' :: x)) : Stops false 0 c := by
  cases ys with
  | nil => exact stops_of_flush hc hx
  | cons z zs =>
    have hspace : z ≠ ' ' := by simpa using hys
    rintro gap next hgap
    rw [plainGap?_spaces hspace (hbreaks z List.mem_cons_self) hc] at hgap
    obtain ⟨rfl, rfl⟩ := Prod.mk.inj (Option.some.inj hgap)
    have hrest : (c.forward n).rest = z :: zs ++ '\n' :: x := by
      rw [Cursor.forward, hc]
      exact List.drop_left' List.length_replicate
    have hrun := plainRun_line (rfl : plainRun false (z :: zs) = (_, _)) x
    rw [hrest, hrun]
    rcases Nat.eq_zero_or_pos n with rfl | hn
    · exact .inl rfl
    · by_cases hhash : z = '#'
      · exact .inr (.inl (congrArg some hhash))
      · refine .inr (.inr (.inl ?_))
        by_contra hmore
        exact h ⟨hn, by simpa using hhash, hmore⟩

/-- **A front part of a line is read, whatever the lines after it are.** -/
theorem plain_line {n : Nat} : ∀ {cs : List Char}, cs.length ≤ n → (∀ y ∈ cs, isBreak y = false) →
    (plainRun false cs).1 ≠ [] → ∃ v tail, cs = v ++ tail ∧ (tail = [] → Phrase false cs cs) ∧
      ∀ {x : List Char}, Flush x → ∀ {c : Cursor} {fuel : Nat}, c.Before (cs ++ '\n' :: x) →
        cs.length < fuel → ∃ c', plain false 0 fuel c = (v, c') ∧ c'.Before (tail ++ '\n' :: x) ∧
          c'.fresh = false := by
  induction n with
  | zero =>
    intro cs hn _ hne
    obtain rfl := List.length_eq_zero_iff.1 (Nat.le_zero.1 hn)
    exact absurd rfl hne
  | succ n ih =>
    intro cs hn hbreaks hne
    obtain ⟨word, rest, hrun⟩ : ∃ word rest, plainRun false cs = (word, rest) := ⟨_, _, rfl⟩
    have hword : word ≠ [] := by rwa [hrun] at hne
    have hrunLine := plainRun_line hrun
    obtain rfl := eq_of_plainRun hrun
    simp only [List.append_assoc] at hrunLine
    obtain ⟨k, ys, rfl, hys⟩ := exists_run ' ' rest
    simp only [List.append_assoc] at hrunLine
    have hbreaks' : ∀ y ∈ ys, isBreak y = false := fun y hy =>
      hbreaks y (List.mem_append_right _ (List.mem_append_right _ hy))
    by_cases hgo : GoesOn k ys
    · obtain ⟨hk, hhash, hmore⟩ := hgo
      obtain ⟨k, rfl⟩ : ∃ m, k = m + 1 := ⟨k - 1, by omega⟩
      obtain ⟨y, zs, rfl⟩ : ∃ y zs, ys = y :: zs :=
        List.exists_cons_of_ne_nil (by rintro rfl; exact hmore rfl)
      have hpos := List.length_pos_of_ne_nil hword
      obtain ⟨v, tail, hv, hphrase, hread⟩ := ih (by simp at hn ⊢; omega) hbreaks' hmore
      refine ⟨word ++ (List.replicate (k + 1) ' ' ++ v), tail, by rw [hv]; simp, fun htail => ?_, ?_⟩
      · exact .spaces k hword (isWord_of_plainRun hrun rfl) hhash (hphrase htail)
      · intro x hx c fuel hc hfuel
        obtain ⟨fuel, rfl⟩ : ∃ m, fuel = m + 1 := ⟨fuel - 1, by omega⟩
        rw [List.append_assoc, List.append_assoc] at hc
        have hblanks := hc.forward_append
        have hnext := hblanks.forward_append
        rw [List.length_replicate] at hnext
        have hgap := plainGap?_spaces (by simpa using hys) (hbreaks' y List.mem_cons_self)
          hblanks.rest_eq
        obtain ⟨c', hplain, hc'⟩ := hread hx hnext
          (show (y :: zs).length < fuel by simp at hfuel ⊢; omega)
        refine ⟨c', ?_, hc'⟩
        rw [plain_more (hrunLine x) hc.rest_eq hgap (by simp) ?_ ?_ ?_ fuel, hplain]
        · simp
        · rw [hnext.rest_eq]
          exact hhash
        · rw [hnext.rest_eq, plainRun_line (rfl : plainRun false (y :: zs) = (_, _))]
          exact hmore
        · have hcolumn := hnext.column_pos
          omega
    · refine ⟨word, List.replicate k ' ' ++ ys, rfl, fun htail => ?_, ?_⟩
      · rw [htail, List.append_nil] at hrun ⊢
        exact .word hword (isWord_of_plainRun hrun rfl)
      · intro x hx c fuel hc hfuel
        obtain ⟨fuel, rfl⟩ : ∃ m, fuel = m + 1 := ⟨fuel - 1, by omega⟩
        rw [List.append_assoc, List.append_assoc] at hc
        have hnext := hc.forward_append
        refine ⟨_, plain_last (hrunLine x) hc.rest_eq ?_ fuel, ?_, rfl⟩
        · exact stops_of_not_goesOn hys hbreaks' hgo hx hnext.rest_eq
        · rwa [List.append_assoc]

end DeclGraph.Yaml
