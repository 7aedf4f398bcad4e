/-
  Lines of a text, and where they begin.

  * `line_start` and `Remarks.line_start`: where a line with content can begin in what a writer puts
    there;
  * `exists_go`: a text is read with other line breaks, and `SameLines` is what stays as it is;
  * `plainLine_of_plain`: a scalar that is read as the whole rest of its line stands for itself.
-/
import DeclGraph.Proofs.Yaml.Entries

namespace DeclGraph.Yaml

variable {u v w m cs F rest line : List Char}

/-! ## Starts of lines -/

theorem endsLine_of_append {b : Char} (h : EndsLine (w ++ b :: m)) : EndsLine m := by
  rintro y hy
  refine h y ?_
  rw [List.getLast?_append_of_ne_nil _ (List.cons_ne_nil _ _), List.getLast?_cons, hy]
  rfl

/-- A line whose further lines are set in begins with its first one. -/
theorem line_start (hline : Hung line) (hm : EndsLine m) {y : Char} {ys : List Char} (hy : isGap y = false)
    (h : m ++ y :: ys = line ++ '\n' :: rest) :
    m = [] ∨ ∃ m', EndsLine m' ∧ rest = m' ++ y :: ys := by
  rcases append_or h with ⟨w, rfl, hw⟩ | ⟨m', rfl, hrest⟩
  · refine .inl (by_contra fun hne => ?_)
    cases w with
    | nil =>
      obtain ⟨rfl, -⟩ := List.cons.inj hw
      exact absurd hy (by decide)
    | cons z w =>
      obtain ⟨rfl, -⟩ := List.cons.inj hw
      obtain ⟨b, hb⟩ := Option.ne_none_iff_exists'.1 (mt List.getLast?_eq_none_iff.1 hne)
      have hgap := (List.isChain_append.1 hline.hanging).2.2 b hb y rfl (hm b hb)
      rw [isGap_of_space_or_break hgap] at hy
      cases hy
  · exact .inr ⟨m', endsLine_of_append hm, hrest⟩

/-- A remark does not begin with content. -/
theorem IsRemark.head_ne {y : Char} {ys : List Char} (h : IsRemark line) (hy : isGap y = false)
    (hhash : y ≠ '#') : y :: ys ≠ line ++ '\n' :: rest := by
  intro heq
  cases line with
  | nil =>
    obtain ⟨rfl, -⟩ := List.cons.inj heq
    exact absurd hy (by decide)
  | cons x line =>
    obtain ⟨rfl, -⟩ := List.cons.inj heq
    exact hhash (h.head y rfl)

/-- No line with content begins in remarks. -/
theorem Remarks.line_start {r : List Char} (hr : Remarks r) {y : Char} {ys : List Char}
    (hy : isGap y = false) (hhash : y ≠ '#') : ∀ {m : List Char}, EndsLine m →
      m ++ y :: ys = r ++ rest → ∃ m', EndsLine m' ∧ rest = m' ++ y :: ys := by
  induction hr with
  | nil => exact fun hm h => ⟨_, hm, h.symm⟩
  | @line line w hline _ ih =>
    intro m hm h
    rw [List.append_assoc, List.cons_append] at h
    rcases Yaml.line_start (calm_of_line hline.line).toHung hm hy h with rfl | ⟨m', hm', hrest⟩
    · exact absurd h (hline.head_ne hy hhash)
    · exact ih hm' hrest.symm

/-! ## Line breaks -/

theorem go_cons {y : Char} (hreturn : y ≠ '\r') (hnext : y ≠ '\u0085') (w : List Char) :
    normalized.go (y :: w) = y :: normalized.go w := by
  rw [normalized.go]
  · rintro rest rfl
    exact absurd rfl hreturn
  · exact fun h => hreturn h
  · exact fun h => hnext h

theorem go_return (h : w.head? ≠ some '\n') : normalized.go ('\r' :: w) = '\n' :: normalized.go w := by
  rw [normalized.go]
  rintro rest rfl
  exact absurd rfl h

theorem go_append (hu : ∀ y ∈ u, y ≠ '\r' ∧ y ≠ '\u0085') (v : List Char) :
    normalized.go (u ++ v) = u ++ normalized.go v := by
  induction u with
  | nil => rfl
  | cons y u ih =>
    obtain ⟨hy, hu⟩ := List.forall_mem_cons.1 hu
    rw [List.cons_append, go_cons hy.1 hy.2, ih hu]
    rfl

/-- A text with other line breaks. -/
structure SameLines (cs w : List Char) : Prop where
  total_eq : ∀ W : Weight, W.total w = W.total cs
  starts_eq : starts w = starts cs
  beginsLine_eq : beginsLine w = beginsLine cs
  length_le : w.length ≤ cs.length

theorem SameLines.refl (cs : List Char) : SameLines cs cs := ⟨fun _ => rfl, rfl, rfl, Nat.le_refl _⟩

theorem SameLines.cons (h : SameLines cs w) (y : Char) : SameLines (y :: cs) (y :: w) where
  total_eq W := by rw [W.total_cons, W.total_cons, h.total_eq]
  starts_eq := by rw [starts, starts, h.starts_eq, h.beginsLine_eq]
  beginsLine_eq := rfl
  length_le := Nat.succ_le_succ h.length_le

/-- A line break stands for another one. -/
theorem SameLines.line_feed (h : SameLines cs w) {b : Char} (hb : isBreak b = true) :
    SameLines (b :: cs) ('\n' :: w) where
  total_eq W := by
    rw [W.total_cons, W.total_cons, h.total_eq, W.of_gap b (isGap_of_space_or_break (.inr hb)),
      W.of_gap '\n' (by decide)]
  starts_eq := by
    rw [starts, starts, h.starts_eq, h.beginsLine_eq, hb]
    rfl
  beginsLine_eq := by
    simp [beginsLine, hb]
    decide
  length_le := Nat.succ_le_succ h.length_le

/-- A line break counts for nothing before another one. -/
theorem SameLines.skipped (h : SameLines cs w) {b : Char} (hb : isBreak b = true)
    (hcs : beginsLine cs = false) : SameLines (b :: cs) w where
  total_eq W := by
    rw [W.total_cons, h.total_eq, W.of_gap b (isGap_of_space_or_break (.inr hb)), Nat.zero_add]
  starts_eq := by
    rw [starts, h.starts_eq, hcs, Bool.and_false, if_neg Bool.false_ne_true, Nat.zero_add]
  beginsLine_eq := by
    rw [h.beginsLine_eq, hcs]
    simp [beginsLine, hb]
  length_le := Nat.le_succ_of_le h.length_le

/-- The line breaks before a line feed are changed, and it stays. -/
theorem exists_go (F : List Char) : ∀ cs : List Char, ∃ w,
    normalized.go (cs ++ '\n' :: F) = w ++ '\n' :: normalized.go F ∧ SameLines cs w
  | [] => ⟨[], go_cons (by decide) (by decide) F, .refl []⟩
  | y :: cs => by
    obtain ⟨w, hw, hlines⟩ := exists_go F cs
    by_cases hreturn : y = '\r'
    · subst hreturn
      have hbreak : isBreak '\r' = true := by decide
      cases cs with
      | nil => exact ⟨[], rfl, SameLines.skipped (.refl []) hbreak rfl⟩
      | cons z cs =>
        by_cases hz : z = '\n'
        · subst hz
          refine ⟨w, ?_, hlines.skipped hbreak rfl⟩
          rw [← hw, List.cons_append, List.cons_append, normalized.go, go_cons (by decide) (by decide)]
        · refine ⟨'\n' :: w, ?_, hlines.line_feed hbreak⟩
          rw [List.cons_append, go_return (by simpa using hz), hw]
          rfl
    by_cases hnext : y = '\u0085'
    · subst hnext
      refine ⟨'\n' :: w, ?_, hlines.line_feed (by decide)⟩
      rw [List.cons_append, normalized.go, hw]
      rfl
    · refine ⟨y :: w, ?_, hlines.cons y⟩
      rw [List.cons_append, go_cons hreturn hnext, hw]
      rfl

/-! ## Names without quotes -/

theorem plainRun_ne_nil (h : startsPlain false cs = true) : (plainRun false cs).1 ≠ [] := by
  cases cs with
  | nil => cases h
  | cons y ys =>
    obtain ⟨hy, -⟩ := startsPlain_head h
    have hcolon : y = ':' → atGap ys = false := by
      rintro rfl
      have hmem : ':' ∈ indicators := by decide
      simpa [startsPlain, hmem] using h
    by_cases hy' : y = ':'
    · simp [plainRun, hy, hcolon hy']
    · simp [plainRun, hy, hy']

theorem startsPlain_of_line (h : startsPlain false (cs ++ '\n' :: F) = true) :
    startsPlain false cs = true := by
  cases cs with
  | nil => exact absurd h (by simp [startsPlain, atGap, isGap, isBreak])
  | cons y ys =>
    have hgap : atGap (ys ++ '\n' :: F) = atGap ys := by cases ys <;> rfl
    rwa [List.cons_append, startsPlain, hgap] at h

/-- A name that is read as a whole after its colon stands for itself. -/
theorem plainLine_of_plain {s : String} {c c' start : Cursor} {p r : List Char} (hF : Flush F)
    (hlines : SameLines s.toList w) (hw : ' ' :: w = p ++ (v ++ r))
    (hp : c.Passes p start) (hrest : start.rest = v ++ r ++ '\n' :: F)
    (hstarts : startsPlain false start.rest = true)
    (hplain : plain false 0 (start.rest.length + 1) start = (s.toList, c'))
    (hread : PlainRead true v s.toList) (htext : isText s = true)
    (hallowed : ∀ y ∈ w, isAllowed y = true) : PlainLine s := by
  have hlength := hread.length_le
  have hlines := hlines.length_le
  -- the space before the name is passed, and no more
  obtain ⟨p, rfl⟩ : ∃ p', p = ' ' :: p' := by
    cases p with
    | nil =>
      rw [hrest, ← List.nil_append (v ++ r), ← hw, List.cons_append] at hstarts
      exact absurd (startsPlain_head hstarts).1 (by decide)
    | cons y p =>
      obtain ⟨rfl, -⟩ := List.cons.inj hw
      exact ⟨p, rfl⟩
  obtain rfl : w = p ++ (v ++ r) := (List.cons.inj hw).2
  simp only [List.length_append] at hlines
  obtain rfl := List.length_eq_zero_iff.1 (show p.length = 0 by omega)
  obtain rfl := List.length_eq_zero_iff.1 (show r.length = 0 by omega)
  obtain ⟨rfl, hline⟩ := hread.eq_of_length (by omega)
  rw [List.append_nil] at hrest
  have hbefore : start.Before (s.toList ++ '\n' :: F) := by
    refine ⟨hrest, Nat.pos_of_ne_zero fun hzero => ?_⟩
    exact absurd ((hp.column_eq_zero.1 hzero).1 ' ' rfl) (by decide)
  rw [hrest] at hstarts
  have hstarts := startsPlain_of_line hstarts
  obtain ⟨v, tail, hv, hphrase, hreads⟩ := plain_line (Nat.le_refl _) hline (plainRun_ne_nil hstarts)
  obtain ⟨after, hplain', -⟩ := hreads hF hbefore
    (by rw [hrest, List.length_append]; omega : s.toList.length < start.rest.length + 1)
  rw [hplain] at hplain'
  obtain ⟨rfl, -⟩ := Prod.mk.inj hplain'
  have hphrase := hphrase (by simpa using hv)
  exact ⟨hstarts, htext, by simpa using hallowed, hphrase.plainText.1, hphrase.plainText.2⟩

end DeclGraph.Yaml
