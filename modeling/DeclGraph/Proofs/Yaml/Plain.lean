/-
  Texts without quotes.

  A plain scalar consists of words with blanks between them.  It goes on as long as no colon or mark
  of flow style ends it, and as no comment begins.

  * `PlainText`: a text whose characters do not end it;
  * `Phrase`: what may be written for such a text;
  * `plain_phrase`: what is of this form is read as the text;
  * `putPlain_phrase`: what is written is of this form.
-/
import DeclGraph.Proofs.Yaml.Quoted

namespace DeclGraph.Yaml

open Cursor

variable {flow : Bool} {indent : Int} {c : Cursor} {cs w word x : List Char}

/-! ## Words -/

/-- Characters that end a plain scalar in flow style, wherever they stand or before some others. -/
def flowMarks : List Char := [':', '?', ',', '[', ']', '\x7b', '\x7d']

/-- A word of a plain scalar. -/
structure IsWord (flow : Bool) (word : List Char) : Prop where
  solid : ∀ y ∈ word, isGap y = false
  colons : ∀ u v, word = u ++ ':' :: v → atGap v = false
  marks : flow = true → ∀ y ∈ word, y ∉ flowMarks

/-- Whether a word is over before a text. -/
def EndsWord (flow : Bool) (x : List Char) : Prop :=
  atGap x = true ∨ (flow = true ∧ atFlowEnd x = true) ∨ x.head? = some ':' ∧ atGap x.tail = true

theorem plainRun_end (h : EndsWord flow x) : plainRun flow x = ([], x) := by
  cases x with
  | nil => rfl
  | cons y x =>
    rcases h with h | ⟨rfl, h⟩ | ⟨hcolon, h⟩
    · have hy : isGap y = true := h
      simp [plainRun, hy]
    · have hy : atFlowEnd [y] = true := h
      simp [plainRun, hy]
    · have hy : y = ':' := Option.some.inj hcolon
      have hx : atGap x = true := h
      simp [plainRun, hy, hx]

theorem IsWord.tail {y : Char} (h : IsWord flow (y :: word)) : IsWord flow word where
  solid z hz := h.solid z (List.mem_cons_of_mem y hz)
  colons u v huv := h.colons (y :: u) v (by rw [huv]; rfl)
  marks hflow z hz := h.marks hflow z (List.mem_cons_of_mem y hz)

theorem atGap_append (h : atGap w = false) (x : List Char) : atGap (w ++ x) = false := by
  cases w with
  | nil => cases h
  | cons y w => exact h

/-- **A word is read up to its end.** -/
theorem IsWord.plainRun_append (h : IsWord flow word) (hx : EndsWord flow x) :
    plainRun flow (word ++ x) = (word, x) := by
  induction word with
  | nil => exact plainRun_end hx
  | cons y word ih =>
    have hgap : isGap y = false := h.solid y List.mem_cons_self
    have hgo : (isGap y || (y == ':' && (atGap (word ++ x) || (flow && atFlowEnd (word ++ x)))) ||
        (flow && (y == '?' || atFlowEnd [y]))) = false := by
      cases flow with
      | false =>
        by_cases hy : y = ':'
        · have hnext := atGap_append (h.colons [] word (by rw [hy]; rfl)) x
          simp [hgap, hnext]
        · simp [hgap, hy]
      | true =>
        have hmarks := h.marks rfl y List.mem_cons_self
        simp only [flowMarks, List.mem_cons, List.not_mem_nil, or_false, not_or] at hmarks
        obtain ⟨hcolon, hmark, hmarks⟩ := hmarks
        have hflow : atFlowEnd [y] = false := by simpa [atFlowEnd] using hmarks
        simp [hgap, hcolon, hmark, hflow]
    rw [List.cons_append, plainRun, hgo, ih h.tail]
    rfl

/-! ## Phrases -/

/-- What may be written for a text without quotes.  In flow style a single space may be a line
    break. -/
inductive Phrase (flow : Bool) : List Char → List Char → Prop where
  | word {word : List Char} : word ≠ [] → IsWord flow word → Phrase flow word word
  | spaces {word cs w : List Char} (n : Nat) : word ≠ [] → IsWord flow word → w.head? ≠ some '#' →
    Phrase flow cs w → Phrase flow (word ++ (List.replicate (n + 1) ' ' ++ cs))
      (word ++ (List.replicate (n + 1) ' ' ++ w))
  | newline {word cs w : List Char} : flow = true → word ≠ [] → IsWord flow word →
    w.head? ≠ some '#' → Phrase flow cs w →
    Phrase flow (word ++ ' ' :: cs) (word ++ '\n' :: (indentation ++ w))

theorem Phrase.legible (h : Phrase flow cs w) (hcs : ∀ y ∈ cs, Printable y) : Legible w := by
  have hleft {u v : List Char} (huv : ∀ y ∈ u ++ v, Printable y) : Legible u :=
    fun y hy => .inr (huv y (List.mem_append_left v hy))
  induction h with
  | word _ _ => exact fun y hy => .inr (hcs y hy)
  | spaces n _ _ _ _ ih =>
    have hright := List.forall_mem_append.1 (List.forall_mem_append.1 hcs).2
    exact (hleft hcs).append ((legible_replicate (.inr (by decide)) _).append (ih hright.2))
  | newline _ _ _ _ _ ih =>
    have hright := List.forall_mem_cons.1 (List.forall_mem_append.1 hcs).2
    exact (hleft hcs).append ((legible_indentation.append (ih hright.2)).cons (.inl rfl))

/-- A phrase begins with a word. -/
theorem Phrase.exists_word (h : Phrase flow cs w) : ∃ word x, w = word ++ x ∧ word ≠ [] ∧
    IsWord flow word ∧ atGap x = true := by
  cases h with
  | word hne hword => exact ⟨_, [], (List.append_nil _).symm, hne, hword, rfl⟩
  | spaces n hne hword _ _ => exact ⟨_, _, rfl, hne, hword, rfl⟩
  | newline _ hne hword _ _ => exact ⟨_, _, rfl, hne, hword, rfl⟩

/-- A phrase is gone on with. -/
theorem Phrase.plainRun_ne_nil (h : Phrase flow cs w) (hx : EndsWord flow x) :
    (plainRun flow (w ++ x)).1 ≠ [] := by
  obtain ⟨word, y, rfl, hne, hword, hy⟩ := h.exists_word
  have hends : EndsWord flow (y ++ x) := by
    cases y with
    | nil => exact hx
    | cons z y => exact .inl hy
  rw [List.append_assoc, hword.plainRun_append hends]
  exact hne

/-- The first character of a phrase is none that is passed over. -/
theorem Phrase.exists_head (h : Phrase flow cs w) : ∃ y ys, w = y :: ys ∧ isGap y = false := by
  obtain ⟨word, x, rfl, hne, hword, -⟩ := h.exists_word
  cases word with
  | nil => exact absurd rfl hne
  | cons y word => exact ⟨y, word ++ x, rfl, hword.solid y List.mem_cons_self⟩

theorem ne_space_of_isGap {y : Char} (h : isGap y = false) : y ≠ ' ' := by
  rintro rfl
  exact absurd h (by decide)

theorem isBreak_of_isGap {y : Char} (h : isGap y = false) : isBreak y = false := by
  rw [isGap, Bool.or_eq_false_iff] at h
  exact h.2

/-! ## Texts -/

/-- A text that no character ends, where it stands without quotes. -/
structure PlainText (flow : Bool) (cs : List Char) : Prop where
  blanks : ∀ y ∈ cs, isGap y = true → y = ' '
  colons : ∀ u v, cs = u ++ ':' :: v → atGap v = false
  hashes : cs.IsChain fun a b => ¬ (a = ' ' ∧ b = '#')
  marks : flow = true → ∀ y ∈ cs, y ∉ flowMarks

theorem plainText_of_notMem {cs : List Char} (hblanks : ∀ y ∈ cs, isGap y = true → y = ' ')
    (hcolon : ':' ∉ cs) (hhashes : cs.IsChain fun a b => ¬ (a = ' ' ∧ b = '#')) :
    PlainText false cs where
  blanks := hblanks
  colons u v huv := absurd (by rw [huv]; simp) hcolon
  hashes := hhashes
  marks := nofun

theorem PlainText.right {u : List Char} (h : PlainText flow (u ++ cs)) : PlainText flow cs where
  blanks y hy := h.blanks y (List.mem_append_right u hy)
  colons u' v huv := h.colons (u ++ u') v (by rw [huv, List.append_assoc])
  hashes := h.hashes.right_of_append
  marks hflow y hy := h.marks hflow y (List.mem_append_right u hy)

theorem PlainText.isWord (h : PlainText flow (word ++ cs)) (hword : ' ' ∉ word)
    (hcs : atGap cs = true) : IsWord flow word where
  solid y hy := by
    refine eq_false_of_ne_true fun hgap => hword ?_
    rwa [← h.blanks y (List.mem_append_left cs hy) hgap]
  colons u v huv := by
    have hgap := h.colons u (v ++ cs) (by rw [huv, List.append_assoc]; rfl)
    cases v with
    | nil => exact absurd hcs (by rw [show atGap cs = false from hgap]; exact Bool.false_ne_true)
    | cons z v => exact hgap
  marks hflow y hy := h.marks hflow y (List.mem_append_left cs hy)

/-- Words with spaces between them. -/
inductive Spaced : List Char → Prop where
  | word {word : List Char} : word ≠ [] → ' ' ∉ word → Spaced word
  | spaces {word cs : List Char} (n : Nat) : word ≠ [] → ' ' ∉ word → Spaced cs →
    Spaced (word ++ (List.replicate (n + 1) ' ' ++ cs))

theorem Spaced.cons {y : Char} (hy : y ≠ ' ') (h : Spaced cs) : Spaced (y :: cs) := by
  have hmem {word : List Char} (hword : ' ' ∉ word) : ' ' ∉ y :: word := by
    simp [hy.symm, hword]
  cases h with
  | word _ hword => exact .word (List.cons_ne_nil _ _) (hmem hword)
  | spaces n _ hword h => exact .spaces n (List.cons_ne_nil y _) (hmem hword) h

theorem Spaced.of_ends {n : Nat} : ∀ {cs : List Char}, cs.length ≤ n → cs ≠ [] →
    cs.head? ≠ some ' ' → cs.getLast? ≠ some ' ' → Spaced cs := by
  induction n with
  | zero => exact fun hn hne => absurd (List.length_eq_zero_iff.1 (Nat.le_zero.1 hn)) hne
  | succ n ih =>
    rintro (- | ⟨y, cs⟩) hn hne hhead hlast
    · exact absurd rfl hne
    have hy : y ≠ ' ' := by simpa using hhead
    have hshort : cs.length ≤ n := Nat.le_of_succ_le_succ hn
    obtain ⟨k, ys, rfl, hys⟩ := exists_run ' ' cs
    have hlast' (h : ys ≠ []) : ys.getLast? ≠ some ' ' := by
      rwa [← List.cons_append, List.getLast?_append_of_ne_nil _ h] at hlast
    cases ys with
    | nil =>
      cases k with
      | zero => exact .word (List.cons_ne_nil _ _) (by simpa using hy.symm)
      | succ k =>
        rw [List.append_nil, List.getLast?_cons_of_ne_nil (by simp)] at hlast
        exact absurd (by simp [List.getLast?_replicate]) hlast
    | cons z ys =>
      have hspaced : Spaced (z :: ys) :=
        ih (by simp at hshort ⊢; omega) (List.cons_ne_nil z ys) hys (hlast' (List.cons_ne_nil z ys))
      cases k with
      | zero => exact hspaced.cons hy
      | succ k =>
        have hword : ' ' ∉ [y] := by simpa using hy.symm
        exact .spaces k (List.cons_ne_nil y []) hword hspaced

theorem Spaced.ne_nil (h : Spaced cs) : cs ≠ [] := by
  cases h with
  | word hne _ => exact hne
  | spaces n hne _ _ => exact List.append_ne_nil_of_left_ne_nil hne _

/-- No comment begins after spaces. -/
theorem PlainText.hash {n : Nat} (h : PlainText flow (word ++ (List.replicate (n + 1) ' ' ++ cs))) :
    cs.head? ≠ some '#' :=
  head_ne_of_isChain h.right.hashes

/-- A text that nothing ends is a phrase. -/
theorem Spaced.phrase (h : Spaced cs) (htext : PlainText flow cs) : Phrase flow cs cs := by
  induction h with
  | @word word hne hword =>
    rw [← List.append_nil word] at htext
    exact .word hne (htext.isWord hword rfl)
  | spaces n hne hword _ ih =>
    exact .spaces n hne (htext.isWord hword rfl) htext.hash (ih htext.right.right)

/-! ## Reading -/

/-- Whether a plain scalar does not go on after the blanks here. -/
def Stops (flow : Bool) (indent : Int) (c : Cursor) : Prop :=
  ∀ gap next, plainGap? c = some (gap, next) → gap = [] ∨ next.rest.head? = some '#' ∨
    (plainRun flow next.rest).1 = [] ∨ (flow = false ∧ (next.column : Int) ≤ indent)

theorem jumpTo_append (h : c.rest = w ++ x) : c.jumpTo x = c.forward w.length := by
  rw [Cursor.jumpTo, h, List.length_append, Nat.add_sub_cancel]

/-- A scalar ends with a word. -/
theorem plain_last (hrun : plainRun flow (word ++ x) = (word, x)) (hc : c.rest = word ++ x)
    (hstops : Stops flow indent (c.forward word.length)) (fuel : Nat) :
    plain flow indent (fuel + 1) c = (word, c.forward word.length) := by
  rw [plain, hc, hrun]
  dsimp only
  rw [jumpTo_append hc]
  cases hgap : plainGap? (c.forward word.length) with
  | none => rfl
  | some found =>
    have hstop := hstops found.1 found.2 hgap
    simp only
    rw [if_pos (by simpa using hstop)]

/-- A scalar goes on after blanks. -/
theorem plain_more (hrun : plainRun flow (word ++ x) = (word, x)) (hc : c.rest = word ++ x)
    {gap : List Char} {next : Cursor} (hgap : plainGap? (c.forward word.length) = some (gap, next))
    (hne : gap ≠ []) (hhash : next.rest.head? ≠ some '#')
    (hmore : (plainRun flow next.rest).1 ≠ []) (hcolumn : ¬ (next.column : Int) ≤ indent)
    (fuel : Nat) : plain flow indent (fuel + 1) c =
      (word ++ gap ++ (plain flow indent fuel next).1, (plain flow indent fuel next).2) := by
  have hgo : ¬ (gap = [] ∨ next.rest.head? = some '#' ∨ (plainRun flow next.rest).1 = [] ∨
      ((!flow) = true ∧ (next.column : Int) ≤ indent)) := by
    simp only [not_or, not_and]
    exact ⟨hne, hhash, hmore, fun _ => hcolumn⟩
  rw [plain, hc, hrun]
  dsimp only
  rw [jumpTo_append hc, hgap]
  simp only
  rw [if_neg hgo]

theorem Phrase.plain_more (h : Phrase flow cs w) (hhash : w.head? ≠ some '#')
    (hx : EndsWord flow x) (hindent : indent ≤ 0) {gap blank : List Char} {next : Cursor}
    (hword : IsWord flow word) (hblank : atGap blank = true) (hc : c.rest = word ++ blank)
    (hgap : plainGap? (c.forward word.length) = some (gap, next)) (hne : gap ≠ [])
    (hnext : next.Before (w ++ x)) (fuel : Nat) :
    plain flow indent (fuel + 1) c =
      (word ++ gap ++ (plain flow indent fuel next).1, (plain flow indent fuel next).2) := by
  refine Yaml.plain_more (hword.plainRun_append (.inl hblank)) hc hgap hne ?_ ?_ ?_ fuel
  · obtain ⟨y, ys, rfl, -⟩ := h.exists_head
    rw [hnext.rest_eq]
    exact hhash
  · rw [hnext.rest_eq]
    exact h.plainRun_ne_nil hx
  · have hpos := hnext.column_pos
    omega

theorem plainGap?_spaces {y : Char} (hspace : y ≠ ' ') (hbreak : isBreak y = false) {n : Nat}
    (h : c.rest = List.replicate n ' ' ++ y :: x) :
    plainGap? c = some (List.replicate n ' ', c.forward n) := by
  have hrest : (c.forward n).rest = y :: x := by
    rw [Cursor.forward, h]
    exact List.drop_left' List.length_replicate
  have hspaces := takeWhile_spaces (· == ' ') (by rfl) (x := y) (by simpa using hspace) n x
  simp only [plainGap?, h, hspaces, List.length_replicate, hrest, hbreak, Bool.false_eq_true,
    if_false]

theorem breaks?_space {rest : List Char} (h : c.rest = ' ' :: rest) (fuel : Nat) :
    breaks? (fuel + 1) c = breaks? fuel { c.forward 1 with fresh := c.fresh } := by
  have hend : c.atEnd = false := atEnd_eq_false h (by decide) (by decide)
  rw [breaks?, hend, h]
  simp

theorem breaks?_break {rest : List Char} (h : c.rest = '\n' :: rest) (fuel : Nat) :
    breaks? (fuel + 1) c = (breaks? fuel c.newline).map fun p => ('\n' :: p.1, p.2) := by
  have hend : c.atEnd = false := atEnd_eq_false h (by decide) (by decide)
  have hbreak : isBreak '\n' = true := by decide
  rw [breaks?, hend, h]
  simp [hbreak]

theorem breaks?_solid {y : Char} (hy : isGap y = false) (h : c.Before (y :: x)) (fuel : Nat) :
    breaks? (fuel + 1) c = some ([], c) := by
  have hcolumn : (c.column == 0) = false := beq_eq_false_iff_ne.2 h.column_pos.ne'
  rw [breaks?, hcolumn, h.rest_eq]
  simp [ne_space_of_isGap hy, isBreak_of_isGap hy]

theorem breaks?_indentation {y : Char} (hy : isGap y = false) (h : c.rest = indentation ++ y :: x)
    {fuel : Nat} (hfuel : 3 ≤ fuel) :
    ∃ c', breaks? fuel c = some ([], c') ∧ c'.Before (y :: x) := by
  obtain ⟨fuel, rfl⟩ := Nat.exists_eq_add_of_le' hfuel
  obtain ⟨middle, hmiddle⟩ :
      ∃ middle : Cursor, middle = { c.forward 1 with fresh := c.fresh } := ⟨_, rfl⟩
  have hrest : middle.rest = ' ' :: y :: x := by
    rw [hmiddle, Cursor.forward, h]
    rfl
  have hlast : Cursor.Before { middle.forward 1 with fresh := middle.fresh } (y :: x) :=
    ⟨by rw [Cursor.forward, hrest]; rfl, Nat.succ_pos _⟩
  refine ⟨_, ?_, hlast⟩
  rw [breaks?_space h, ← hmiddle, breaks?_space hrest, breaks?_solid hy hlast]

/-- A single line break stands for a space. -/
theorem plainGap?_newline {y : Char} (hy : isGap y = false)
    (h : c.Before ('\n' :: (indentation ++ y :: x))) :
    ∃ next, plainGap? c = some ([' '], next) ∧ next.Before (y :: x) := by
  have hbreak : isBreak '\n' = true := by decide
  have hspaces : c.rest.takeWhile (· == ' ') = [] := by rw [h.rest_eq]; rfl
  have hstart : (c.forward 0).rest = '\n' :: (indentation ++ y :: x) := h.rest_eq
  have hline : (c.forward 0).newline.rest = indentation ++ y :: x := by rw [newline_eq hstart]
  obtain ⟨next, hbreaks, hnext⟩ := breaks?_indentation hy hline
    (show 3 ≤ (c.forward 0).rest.length by rw [hstart]; simp [indentation])
  refine ⟨next, ?_, hnext⟩
  rw [plainGap?, hspaces]
  simp only [List.length_nil, breaks?_break hstart, hbreaks]
  rw [hstart]
  rfl

/-- A scalar does not go on at a character that is no blank. -/
theorem stops_of_isGap {y : Char} (hy : isGap y = false) (h : c.rest = y :: x) :
    Stops flow indent c := by
  rintro gap next hgap
  rw [plainGap?_spaces (n := 0) (ne_space_of_isGap hy) (isBreak_of_isGap hy) h] at hgap
  obtain ⟨rfl, -⟩ := Prod.mk.inj (Option.some.inj hgap)
  exact .inl rfl

/-- Whether the first line that is not empty is not set in. -/
def Flush : List Char → Prop
  | [] => True
  | y :: x => y ≠ ' ' ∧ (isBreak y = true → Flush x)

theorem column_of_breaks? {bs : List Char} {c' : Cursor} {fuel : Nat} : ∀ {c : Cursor},
    c.column = 0 → Flush c.rest → breaks? fuel c = some (bs, c') → c'.column = 0 := by
  induction fuel generalizing bs with
  | zero => exact fun _ _ h => nomatch h
  | succ fuel ih =>
    intro c hcolumn hflush h
    rw [breaks?] at h
    split at h
    · cases h
    cases hrest : c.rest with
    | nil =>
      rw [hrest] at h
      cases h
      exact hcolumn
    | cons y x =>
      rw [hrest] at h hflush
      have hspace : (y == ' ') = false := beq_eq_false_iff_ne.2 hflush.1
      simp only [hspace, Bool.false_eq_true, if_false] at h
      split at h
      · rename_i hbreak
        obtain ⟨found, hfound, heq⟩ := Option.map_eq_some_iff.1 h
        obtain ⟨-, rfl⟩ := Prod.mk.inj heq
        rw [newline_eq hrest] at hfound
        exact ih rfl (hflush.2 hbreak) hfound
      · cases h
        exact hcolumn

/-- Outside of flow style a scalar does not go on at a line that is not set in. -/
theorem stops_of_flush {n : Nat} (h : c.rest = List.replicate n ' ' ++ '\n' :: x) (hx : Flush x) :
    Stops false 0 c := by
  rintro gap next hgap
  have hspaces := takeWhile_spaces (· == ' ') (by rfl) (x := '\n') (by rfl) n x
  have hstart : (c.forward n).rest = '\n' :: x := by
    rw [Cursor.forward, h]
    exact List.drop_left' List.length_replicate
  rw [plainGap?, h, hspaces] at hgap
  simp only [List.length_replicate, breaks?_break hstart] at hgap
  rw [hstart] at hgap
  simp only [(by decide : isBreak '\n' = true), if_true, Option.map_map] at hgap
  obtain ⟨found, hfound, heq⟩ := Option.map_eq_some_iff.1 hgap
  obtain ⟨-, rfl⟩ := Prod.mk.inj heq
  have hcolumn : found.2.column = 0 := by
    rw [newline_eq hstart] at hfound
    exact column_of_breaks? rfl hx hfound
  exact .inr (.inr (.inr ⟨rfl, by simp [hcolumn]⟩))

/-- **What may be written for a text without quotes is read as the text.** -/
theorem plain_phrase (h : Phrase flow cs w) (hindent : indent ≤ 0) (hx : EndsWord flow x)
    (hstops : ∀ c : Cursor, c.rest = x → Stops flow indent c) :
    ∀ {c : Cursor} {fuel : Nat}, c.Before (w ++ x) → w.length < fuel →
      ∃ c', plain flow indent fuel c = (cs, c') ∧ c'.Before x ∧ c'.fresh = false := by
  induction h with
  | @word word hne hword =>
    intro c fuel hc hfuel
    obtain ⟨fuel, rfl⟩ : ∃ k, fuel = k + 1 := ⟨fuel - 1, by omega⟩
    have hnext := hc.forward_append
    exact ⟨_, plain_last (hword.plainRun_append hx) hc.rest_eq (hstops _ hnext.rest_eq) fuel, hnext,
      rfl⟩
  | @spaces word cs w n hne hword hhash h ih =>
    intro c fuel hc hfuel
    obtain ⟨fuel, rfl⟩ : ∃ k, fuel = k + 1 := ⟨fuel - 1, by omega⟩
    rw [List.append_assoc, List.append_assoc] at hc
    have hblanks := hc.forward_append
    have hnext := hblanks.forward_append
    rw [List.length_replicate] at hnext
    have hgap : plainGap? (c.forward word.length) =
        some (List.replicate (n + 1) ' ', (c.forward word.length).forward (n + 1)) := by
      obtain ⟨y, ys, rfl, hy⟩ := h.exists_head
      exact plainGap?_spaces (ne_space_of_isGap hy) (isBreak_of_isGap hy) hblanks.rest_eq
    obtain ⟨c', hread, hc'⟩ := ih hnext (show w.length < fuel by simp at hfuel; omega)
    refine ⟨c', ?_, hc'⟩
    rw [h.plain_more hhash hx hindent hword rfl hc.rest_eq hgap (by simp) hnext fuel, hread,
      List.append_assoc]
  | @newline word cs w hflow hne hword hhash h ih =>
    intro c fuel hc hfuel
    obtain ⟨fuel, rfl⟩ : ∃ k, fuel = k + 1 := ⟨fuel - 1, by omega⟩
    rw [List.append_assoc, List.cons_append, List.append_assoc] at hc
    have hblanks := hc.forward_append
    obtain ⟨next, hgap, hnext⟩ : ∃ next, plainGap? (c.forward word.length) = some ([' '], next) ∧
        next.Before (w ++ x) := by
      obtain ⟨y, ys, rfl, hy⟩ := h.exists_head
      exact plainGap?_newline hy hblanks
    obtain ⟨c', hread, hc'⟩ := ih hnext
      (show w.length < fuel by simp [indentation] at hfuel; omega)
    refine ⟨c', ?_, hc'⟩
    rw [h.plain_more hhash hx hindent hword rfl hc.rest_eq hgap (by simp) hnext fuel, hread]
    simp

/-! ## Writing -/

theorem putPlain_word : ∀ {word : List Char} (s : Sheet), ' ' ∉ word →
    putPlain (word ++ cs) s = putPlain cs (s.put word)
  | [], s, _ => by rw [List.nil_append]; rfl
  | y :: word, s, h => by
    have hy : y ≠ ' ' := fun hy => h (hy ▸ List.mem_cons_self)
    rw [List.cons_append, putPlain, putPlain_word _ fun hmem => h (List.mem_cons_of_mem y hmem),
      put_put]
    · rfl
    · rintro z zs rfl
      exact absurd rfl hy

/-- Of several spaces all are written. -/
theorem putPlain_spaces {y : Char} (n : Nat) : ∀ {s : Sheet},
    s.back.head? = some ' ' ∨ 0 < n → putPlain (List.replicate (n + 1) ' ' ++ y :: cs) s =
      putPlain (y :: cs) (s.put (List.replicate (n + 1) ' ')) := by
  induction n with
  | zero =>
    intro s h
    have hback := h.resolve_right (Nat.lt_irrefl 0)
    rw [List.replicate_succ, List.replicate_zero, List.cons_append, List.nil_append, putPlain]
    simp [hback]
  | succ n ih =>
    intro s _
    have hnext := ih (s := s.put [' ']) (.inl rfl)
    rw [put_put] at hnext
    rw [List.replicate_succ, List.replicate_succ, List.cons_append, List.cons_append, putPlain]
    simpa [List.replicate_succ] using hnext

/-- Spaces are written, or a single one stands for a new line. -/
theorem putPlain_run (n : Nat) (y : Char) (cs : List Char) (s : Sheet) :
    ∃ (s' : Sheet) (v : List Char),
    putPlain (List.replicate (n + 1) ' ' ++ y :: cs) s = putPlain (y :: cs) s' ∧
      s'.back = v.reverse ++ s.back ∧ ∀ word w, word ≠ [] → IsWord true word → w.head? ≠ some '#' →
        Phrase true (y :: cs) w →
        Phrase true (word ++ (List.replicate (n + 1) ' ' ++ y :: cs)) (word ++ (v ++ w)) := by
  have hspaces : ∀ word w, word ≠ [] → IsWord true word → w.head? ≠ some '#' →
      Phrase true (y :: cs) w → Phrase true (word ++ (List.replicate (n + 1) ' ' ++ y :: cs))
        (word ++ (List.replicate (n + 1) ' ' ++ w)) :=
    fun _ _ hne hword hhash h => .spaces n hne hword hhash h
  cases n with
  | zero =>
    rw [List.replicate_succ, List.replicate_zero, List.cons_append, List.nil_append, putPlain]
    split
    · exact ⟨s.continued, '\n' :: indentation, rfl, rfl, fun _ _ hne hword hhash h =>
        .newline rfl hne hword hhash h⟩
    · exact ⟨s.put [' '], [' '], rfl, rfl, hspaces⟩
  | succ n =>
    exact ⟨s.put (List.replicate (n + 2) ' '), _, putPlain_spaces (n + 1) (.inr n.succ_pos), rfl,
      hspaces⟩

theorem Phrase.head?_eq (h : Phrase flow cs w) : w.head? = cs.head? := by
  cases h with
  | word _ _ => rfl
  | spaces n hne _ _ _ => rw [List.head?_append_of_ne_nil _ hne, List.head?_append_of_ne_nil _ hne]
  | newline _ hne _ _ _ => rw [List.head?_append_of_ne_nil _ hne, List.head?_append_of_ne_nil _ hne]

/-- **What is written for a text without quotes is of its form.** -/
theorem putPlain_phrase (h : Spaced cs) (htext : PlainText true cs) : ∀ s : Sheet,
    ∃ w, (putPlain cs s).back = w.reverse ++ s.back ∧ Phrase true cs w := by
  induction h with
  | @word word hne hword =>
    intro s
    have hput : putPlain (word ++ []) s = putPlain [] (s.put word) := putPlain_word s hword
    rw [List.append_nil, putPlain] at hput
    rw [← List.append_nil word] at htext
    exact ⟨word, by rw [hput]; rfl, .word hne (htext.isWord hword rfl)⟩
  | @spaces word cs n hne hword h ih =>
    intro s
    obtain ⟨y, ys, rfl⟩ := List.exists_cons_of_ne_nil h.ne_nil
    obtain ⟨s', v, hput, hback, hphrase⟩ := putPlain_run n y ys (s.put word)
    obtain ⟨w, hback', hw⟩ := ih htext.right.right s'
    refine ⟨word ++ (v ++ w), ?_,
      hphrase word w hne (htext.isWord hword rfl) (hw.head?_eq ▸ htext.hash) hw⟩
    rw [putPlain_word s hword, hput, hback', hback, Sheet.put]
    simp

/-! ## Choosing -/

/-- Characters that do not begin a plain scalar. -/
def openers : List Char := "#,[]\x7b\x7d&*!|>'\"%@`".toList

theorem startsPlain_head {y : Char} (h : startsPlain flow (y :: x) = true) :
    isGap y = false ∧ y ∉ openers := by
  have hindicators : ∀ z ∈ openers, z ∈ indicators := by decide
  have hdashes : ∀ z ∈ ['-', '?', ':'], isGap z = false ∧ z ∉ openers := by decide
  rw [startsPlain, Bool.or_eq_true] at h
  rcases h with h | h
  · simp only [Bool.and_eq_true, Bool.not_eq_true', List.contains_eq_mem, decide_eq_false_iff_not] at h
    exact ⟨h.1, fun hy => h.2 (hindicators y hy)⟩
  · simp only [Bool.and_eq_true, Bool.or_eq_true, beq_iff_eq] at h
    refine hdashes y ?_
    rcases h.2 with rfl | ⟨-, rfl | rfl⟩ <;> simp

/-- What may stand after the first character. -/
theorem hasIndicator_some : ∀ {before : Char} {cs : List Char},
    hasIndicator (some before) cs = false →
      (∀ y ∈ cs, y ∉ flowMarks) ∧ (before :: cs).IsChain fun a b => ¬ (a = ' ' ∧ b = '#')
  | before, [], _ => ⟨nofun, .singleton before⟩
  | before, y :: cs, h => by
    have hmarks : ∀ z ∈ flowMarks, ",?[]\x7b\x7d:".toList.contains z = true := by decide
    rw [hasIndicator, Bool.or_eq_false_iff, Bool.or_eq_false_iff] at h
    obtain ⟨⟨-, hinner⟩, hrest⟩ := h
    obtain ⟨hcs, hchain⟩ := hasIndicator_some hrest
    simp only [Option.isSome_some, Bool.true_and, Bool.or_eq_false_iff] at hinner
    refine ⟨List.forall_mem_cons.2 ⟨fun hy => ?_, hcs⟩, .cons_cons ?_ hchain⟩
    · exact absurd (hmarks y hy) (by rw [hinner.1]; exact Bool.false_ne_true)
    · rintro ⟨rfl, rfl⟩
      exact absurd hinner.2 (by decide)

/-- The first character of a text that may stand without quotes. -/
theorem hasIndicator_none {y : Char} (h : hasIndicator none (y :: cs) = false) :
    y ∉ openers ∧ y ∉ flowMarks ∧ (y = '-' → atGap cs = false) ∧ hasIndicator (some y) cs = false := by
  have hmarks : ∀ z ∈ openers ++ flowMarks, "#,[]\x7b\x7d&*!|>'\"%@`?:".toList.contains z = true := by
    decide
  rw [hasIndicator] at h
  simp only [Option.isNone_none, Option.isSome_none, Bool.true_and, Bool.false_and, Bool.or_false,
    Bool.or_eq_false_iff] at h
  obtain ⟨⟨hleading, hdash⟩, hrest⟩ := h
  have hnot {z : Char} (hz : z ∈ openers ++ flowMarks) : z ≠ y := by
    rintro rfl
    rw [hmarks z hz] at hleading
    cases hleading
  refine ⟨fun hy => hnot (List.mem_append_left _ hy) rfl,
    fun hy => hnot (List.mem_append_right _ hy) rfl, ?_, hrest⟩
  rintro rfl
  simpa using hdash

/-- **A text that may stand without quotes in flow style.** -/
structure PlainItem (cs : List Char) : Prop where
  spaced : Spaced cs
  text : PlainText true cs
  chars : ∀ y ∈ cs, Printable y
  starts : ∀ x, startsPlain true (cs ++ x) = true

theorem PlainItem.of_allowsPlain (h : allowsPlain cs = true) : PlainItem cs := by
  simp only [allowsPlain, Bool.and_eq_true, Bool.not_eq_true', List.isEmpty_eq_false_iff] at h
  obtain ⟨⟨⟨⟨⟨⟨⟨hne, hspecial⟩, hbreaks⟩, hindicator⟩, hhead⟩, hlast⟩, -⟩, -⟩ := h
  have hchars : ∀ y ∈ cs, Printable y := by
    intro y hy
    refine (isSpecial_eq_false_iff.1 (eq_false_of_ne_true (List.any_eq_false.1 hspecial y hy))).resolve_left ?_
    rintro rfl
    exact absurd (List.any_eq_false.1 hbreaks _ hy) (by decide)
  have hends {y : Char} (h : some y = some ' ') :
      ((some y).map fun c => c == ' ' || isBreak c).getD false = true := by
    rw [h]
    rfl
  have hhead' : cs.head? ≠ some ' ' := by
    intro hy
    rw [hy] at hhead
    exact absurd (hends rfl) (by rw [hhead]; exact Bool.false_ne_true)
  have hlast' : cs.getLast? ≠ some ' ' := by
    intro hy
    rw [hy] at hlast
    exact absurd (hends rfl) (by rw [hlast]; exact Bool.false_ne_true)
  obtain ⟨y, ys, rfl⟩ := List.exists_cons_of_ne_nil hne
  obtain ⟨hopeners, hmark, hdash, hrest⟩ := hasIndicator_none hindicator
  obtain ⟨hmarks, hchain⟩ := hasIndicator_some hrest
  have hallMarks : ∀ z ∈ y :: ys, z ∉ flowMarks := List.forall_mem_cons.2 ⟨hmark, hmarks⟩
  refine ⟨.of_ends (Nat.le_refl _) hne hhead' hlast', ⟨?_, ?_, hchain, fun _ => hallMarks⟩, hchars, ?_⟩
  · intro z hz hgap
    by_contra hspace
    rw [(hchars z hz).isGap hspace] at hgap
    cases hgap
  · intro u v huv
    exact absurd (by decide : ':' ∈ flowMarks) (hallMarks ':' (by rw [huv]; simp))
  · intro x
    rw [List.cons_append, startsPlain]
    by_cases hdash' : y = '-'
    · have hgap := atGap_append (hdash hdash') x
      simp [hdash', hgap]
    · have hy : isGap y = false := (hchars y List.mem_cons_self).isGap (by simpa using hhead')
      have hindicators : ∀ z ∈ indicators, z = '-' ∨ z ∈ openers ++ flowMarks := by decide
      have hindicator' : y ∉ indicators := by
        intro hmem
        rcases hindicators y hmem with h | h
        · exact hdash' h
        · rcases List.mem_append.1 h with h | h
          · exact hopeners h
          · exact hmark h
      simp [hy, hindicator']

end DeclGraph.Yaml
