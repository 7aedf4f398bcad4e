/-
  Quotes that are closed too late.

  A quote without a partner in its own line goes on into the lines after it, and is closed by the first
  quote there that is none of an escape.  Where these lines are a list of texts, this is the quote before
  some text, if not an earlier one.

  * `DoubleRead.length_le` and `SingleRead.length_le`: up to where a scalar in quotes goes at most;
  * `SingleRead.starts_le`: the lines in a scalar in single quotes;
  * `ItemsForm.exists_double` and `ItemsForm.exists_single`: the first text of a list in such quotes.
-/
import DeclGraph.Proofs.Yaml.Items
import DeclGraph.Proofs.Yaml.Weight

namespace DeclGraph.Yaml

variable {u v w cs rest : List Char} {x y : Char} {s : String} {ss : List String}

/-! ## Two parts of a text -/

/-- A part of a text ends before a character, or goes on with it. -/
theorem append_or {v F : List Char} (h : v ++ rest = w ++ y :: F) :
    (∃ w', w = v ++ w' ∧ rest = w' ++ y :: F) ∨ ∃ z, v = w ++ y :: z ∧ F = z ++ rest := by
  rcases List.append_eq_append_iff.1 h with ⟨w', rfl, hrest⟩ | ⟨z, rfl, hz⟩
  · exact .inl ⟨w', rfl, hrest⟩
  · cases z with
    | nil => exact .inl ⟨[], by simp, hz.symm⟩
    | cons b z =>
      obtain ⟨rfl, rfl⟩ := List.cons.inj hz
      exact .inr ⟨z, rfl, rfl⟩

/-- A text without some character stands before the first one. -/
theorem eq_append_of_notMem {P Q : List Char} (hu : ∀ y ∈ u, y ≠ x) (h : u ++ w = P ++ x :: Q) :
    ∃ P', P = u ++ P' ∧ w = P' ++ x :: Q := by
  refine (append_or h).resolve_right ?_
  rintro ⟨m, rfl, -⟩
  exact hu x (by simp) rfl

/-! ## Closing quotes -/

theorem getLast?_right_ne (h : (u ++ v).getLast? ≠ some x) : v.getLast? ≠ some x := by
  cases v with
  | nil => exact nofun
  | cons y v => rwa [List.getLast?_append_of_ne_nil _ (List.cons_ne_nil y v)] at h

theorem Spacing.ne_quote (h : Spacing y) : y ≠ '"' ∧ y ≠ '\'' := by
  constructor <;> (rintro rfl; exact absurd h (by decide))

/-- An escape does not go beyond a quote that no backslash stands before. -/
theorem length_le_of_escape {mark : Char} {e P Q : List Char} (he : ∀ y ∈ e, y ≠ '"')
    (hv : ∀ {P Q : List Char}, v ++ rest = P ++ '"' :: Q → P.getLast? ≠ some '\\' →
      v.length ≤ P.length + 1)
    (heq : '\\' :: mark :: (e ++ v) ++ rest = P ++ '"' :: Q) (hlast : P.getLast? ≠ some '\\') :
    ('\\' :: mark :: (e ++ v)).length ≤ P.length + 1 := by
  match P, heq, hlast with
  | [], heq, _ => exact absurd (List.cons.inj heq).1 (by decide)
  | [y], heq, hlast => exact absurd (congrArg some (List.cons.inj heq).1.symm) hlast
  | y :: z :: P, heq, hlast =>
    have hmore : e ++ v ++ rest = P ++ '"' :: Q := (List.cons.inj (List.cons.inj heq).2).2
    rw [List.append_assoc] at hmore
    obtain ⟨P', rfl, hP'⟩ := eq_append_of_notMem he hmore
    have hle := hv hP' (getLast?_right_ne (u := y :: z :: e) hlast)
    simp only [List.length_cons, List.length_append]
    omega

/-- **A scalar in double quotes goes at most to a quote that no backslash stands before.** -/
theorem DoubleRead.length_le (h : DoubleRead v cs) : ∀ {P Q : List Char},
    v ++ rest = P ++ '"' :: Q → P.getLast? ≠ some '\\' → v.length ≤ P.length + 1 := by
  induction h with
  | close => exact fun _ _ => Nat.le_add_left _ _
  | @char y v cs _ hquote _ ih =>
    intro P Q heq hlast
    cases P with
    | nil => exact absurd (List.cons.inj heq).1 hquote
    | cons z P =>
      have hle := ih (List.cons.inj heq).2 (getLast?_right_ne (u := [z]) hlast)
      simpa using hle
  | escape he _ ih => exact length_le_of_escape he ih
  | ended hu _ _ ih => exact length_le_of_escape (fun y hy => (hu y hy).ne_quote.1) ih
  | @gap u v cs hu _ ih =>
    intro P Q heq hlast
    rw [List.append_assoc] at heq
    obtain ⟨P', rfl, hP'⟩ := eq_append_of_notMem (fun y hy => (hu y hy).ne_quote.1) heq
    have hle := ih hP' (getLast?_right_ne hlast)
    simp only [List.length_append]
    omega

/-- **A scalar in single quotes goes at most to an odd number of quotes.** -/
theorem SingleRead.length_le (hx : x ≠ '\'') (h : SingleRead v cs) : ∀ {k : Nat} {P Q : List Char},
    v ++ rest = P ++ (List.replicate (2 * k + 1) '\'' ++ x :: Q) → P.getLast? ≠ some '\'' →
      v.length ≤ P.length + (2 * k + 1) := by
  induction h with
  | close => exact fun _ _ => by simp; omega
  | @quote v cs _ ih =>
    intro k P Q heq hlast
    match P, heq, hlast with
    | [], heq, _ =>
      cases k with
      | zero => exact absurd (List.cons.inj (List.cons.inj heq).2).1.symm hx
      | succ k =>
        have hle := ih (P := []) (k := k) (Q := Q) (List.cons.inj (List.cons.inj heq).2).2 nofun
        simp at hle ⊢
        omega
    | [z], heq, hlast => exact absurd (congrArg some (List.cons.inj heq).1.symm) hlast
    | z :: z' :: P, heq, hlast =>
      have hle := ih (List.cons.inj (List.cons.inj heq).2).2 (getLast?_right_ne (u := [z, z']) hlast)
      simp only [List.length_cons]
      omega
  | @char y v cs _ hquote _ ih =>
    intro k P Q heq hlast
    cases P with
    | nil => exact absurd (List.cons.inj heq).1 hquote
    | cons z P =>
      have hle := ih (List.cons.inj heq).2 (getLast?_right_ne (u := [z]) hlast)
      simp only [List.length_cons]
      omega
  | @gap u v cs hu _ _ ih =>
    intro k P Q heq hlast
    rw [List.append_assoc, List.replicate_succ, List.cons_append] at heq
    obtain ⟨P', rfl, hP'⟩ := eq_append_of_notMem (fun y hy => (hu y hy).ne_quote.2) heq
    have hle := ih (k := k) (by rw [hP']; rfl) (getLast?_right_ne hlast)
    simp only [List.length_append]
    omega

theorem SingleRead.getLast? (h : SingleRead v cs) : v.getLast? = some '\'' := by
  induction h with
  | close => rfl
  | quote h ih => rw [List.getLast?_cons_cons, List.getLast?_cons, ih]; rfl
  | char _ _ h ih => rw [List.getLast?_cons, ih]; rfl
  | gap _ _ h ih => rw [List.getLast?_append_of_ne_nil _ h.ne_nil, ih]

theorem DoubleRead.getLast? (h : DoubleRead v cs) : v.getLast? = some '"' := by
  have hright {u v : List Char} (hv : v.getLast? = some '"') : (u ++ v).getLast? = some '"' := by
    rw [List.getLast?_append, hv]
    rfl
  induction h with
  | close => rfl
  | @char y _ _ _ _ _ ih => exact hright (u := [y]) ih
  | @escape mark _ e _ _ _ _ ih => exact hright (u := '\\' :: mark :: e) ih
  | @ended b u _ _ _ _ _ ih => exact hright (u := '\\' :: b :: u) ih
  | gap _ _ ih => exact hright ih

/-! ## Lines in single quotes -/

/-- Whether a line with content begins here. -/
def beginsLine (w : List Char) : Bool := (w.head?.map fun y => !isBreak y && y != '#').getD false

/-- How many lines with content begin in a text after a line break. -/
def starts : List Char → Nat
  | [] => 0
  | y :: w => (if isBreak y && beginsLine w then 1 else 0) + starts w

/-- How many lines with content begin after a line break that single quotes may keep; a line feed
    alone is a space.  Before the text there are blanks or line breaks, or not. -/
def keptStarts (gap : Bool) : List Char → Nat
  | [] => 0
  | y :: w => (if isBreak y && (gap || y != '\n') && beginsLine w then 1 else 0) + keptStarts (isGap y) w

theorem beginsLine_append (hu : u ≠ []) (v : List Char) : beginsLine (u ++ v) = beginsLine u := by
  cases u with
  | nil => exact absurd rfl hu
  | cons y u => rfl

theorem starts_cons (hy : isBreak y = false) (w : List Char) : starts (y :: w) = starts w := by
  rw [starts, hy, Bool.false_and, if_neg Bool.false_ne_true, Nat.zero_add]

theorem starts_blanks (hu : ∀ y ∈ u, isBreak y = false) (w : List Char) : starts (u ++ w) = starts w := by
  induction u with
  | nil => rfl
  | cons y u ih =>
    obtain ⟨hy, hu⟩ := List.forall_mem_cons.1 hu
    rw [List.cons_append, starts_cons hy, ih hu]

theorem keptStarts_cons (hy : isBreak y = false) (gap : Bool) (w : List Char) :
    keptStarts gap (y :: w) = keptStarts (isGap y) w := by
  rw [keptStarts, hy, Bool.false_and, Bool.false_and, if_neg Bool.false_ne_true, Nat.zero_add]

theorem ite_le_ite_of_imp {p q : Prop} [Decidable p] [Decidable q] (h : p → q) :
    (if p then 1 else 0) ≤ if q then 1 else 0 := by
  by_cases hp : p
  · rw [if_pos hp, if_pos (h hp)]
  · rw [if_neg hp]
    exact Nat.zero_le _

theorem keptStarts_le (gap : Bool) (w : List Char) : keptStarts gap w ≤ keptStarts true w := by
  cases w with
  | nil => exact Nat.le_refl 0
  | cons y w => exact Nat.add_le_add_right (ite_le_ite_of_imp (by simp; tauto)) _

theorem keptStarts_false_le (gap : Bool) (w : List Char) : keptStarts false w ≤ keptStarts gap w := by
  cases gap with
  | false => exact Nat.le_refl _
  | true => exact keptStarts_le false w

theorem keptStarts_of_head (h : ∀ y ∈ w.head?, isBreak y = false) (gap : Bool) :
    keptStarts gap w = keptStarts false w := by
  cases w with
  | nil => rfl
  | cons y w => rw [keptStarts_cons (h y rfl), keptStarts_cons (h y rfl)]

theorem beginsLine_of_append (h : beginsLine u = true) (v : List Char) : beginsLine (u ++ v) = true := by
  cases u with
  | nil => cases h
  | cons y u => exact h

theorem starts_append (u v : List Char) : starts u + starts v ≤ starts (u ++ v) := by
  induction u with
  | nil => simp [starts]
  | cons y u ih =>
    have hline : (isBreak y && beginsLine u) = true → (isBreak y && beginsLine (u ++ v)) = true := by
      simp only [Bool.and_eq_true]
      exact And.imp_right fun h => beginsLine_of_append h v
    have hle := ite_le_ite_of_imp hline
    rw [List.cons_append, starts, starts]
    omega

theorem keptStarts_append_left (gap : Bool) (u v : List Char) :
    keptStarts gap u ≤ keptStarts gap (u ++ v) := by
  induction u generalizing gap with
  | nil => exact Nat.zero_le _
  | cons y u ih =>
    refine Nat.add_le_add (ite_le_ite_of_imp ?_) (ih (isGap y))
    simp only [Bool.and_eq_true]
    exact And.imp_right fun h => beginsLine_of_append h v

/-- Before a remark no line with content begins. -/
theorem keptStarts_append_le (hv : beginsLine v = false) (gap : Bool) (u : List Char) :
    keptStarts gap (u ++ v) ≤ starts u + keptStarts true v := by
  induction u generalizing gap with
  | nil => simpa [starts] using keptStarts_le gap v
  | cons y u ih =>
    have hline : (isBreak y && (gap || y != '\n') && beginsLine (u ++ v)) = true →
        (isBreak y && beginsLine u) = true := by
      cases u with
      | nil => simp [hv]
      | cons z u =>
        rw [beginsLine_append (List.cons_ne_nil z u)]
        simp only [Bool.and_eq_true]
        exact fun h => ⟨h.1.1, h.2⟩
    have hle := ite_le_ite_of_imp hline
    have hmore := ih (isGap y)
    rw [List.cons_append, keptStarts, starts]
    omega

/-- Line breaks begin at most one line. -/
theorem starts_breaks {bs : List Char} (hbs : ∀ b ∈ bs, isBreak b = true) (cs : List Char) :
    starts (bs ++ cs) ≤ (if beginsLine cs = true then 1 else 0) + starts cs := by
  induction bs with
  | nil => exact Nat.le_add_left _ _
  | cons b bs ih =>
    obtain ⟨hb, hbs⟩ := List.forall_mem_cons.1 hbs
    cases bs with
    | nil => rw [List.singleton_append, starts, hb, Bool.true_and]
    | cons b' bs =>
      have hline : beginsLine (b' :: bs ++ cs) = false := by
        simp [beginsLine, hbs b' List.mem_cons_self]
      rw [List.cons_append, starts, hline, Bool.and_false, if_neg Bool.false_ne_true, Nat.zero_add]
      exact ih hbs

/-- Whether line breaks are kept. -/
def Keeps (gap : Bool) (bs : List Char) : Prop := bs ≠ [] ∧ (gap = true ∨ bs ≠ ['\n'])

instance (gap : Bool) (bs : List Char) : Decidable (Keeps gap bs) := inferInstanceAs (Decidable (_ ∧ _))

/-- What line breaks mean begins at most one line, and only if they are kept. -/
theorem starts_foldBreaks {bs : List Char} (hbs : ∀ b ∈ bs, isBreak b = true) (cs : List Char) :
    starts (foldBreaks bs ++ cs) ≤ (if Keeps false bs ∧ beginsLine cs = true then 1 else 0) + starts cs := by
  cases bs with
  | nil => exact Nat.le_add_left _ _
  | cons b bs =>
    have hkept (hkeeps : Keeps false (b :: bs)) {bs' : List Char} (hbs' : ∀ b ∈ bs', isBreak b = true) :
        starts (bs' ++ cs) ≤
          (if Keeps false (b :: bs) ∧ beginsLine cs = true then 1 else 0) + starts cs := by
      simp only [hkeeps, true_and]
      exact starts_breaks hbs' cs
    rw [foldBreaks]
    by_cases hb : b = '\n'
    · rw [if_neg (not_not.2 hb)]
      by_cases hnil : bs = []
      · rw [if_pos hnil, List.singleton_append, starts_cons (by decide)]
        exact Nat.le_add_left _ _
      · rw [if_neg hnil]
        exact hkept ⟨List.cons_ne_nil _ _, .inr fun h => hnil (List.cons.inj h).2⟩
          (List.forall_mem_cons.1 hbs).2
    · rw [if_pos hb]
      exact hkept ⟨List.cons_ne_nil _ _, .inr fun h => hb (List.cons.inj h).1⟩ hbs

/-- After the last line break of some spacing only blanks stand. -/
theorem beginsLine_spacing (hu : ∀ y ∈ u, Spacing y) (hnil : u.filter isBreak = [])
    (hv : beginsLine v = true) : beginsLine (u ++ v) = true := by
  cases u with
  | nil => exact hv
  | cons z u =>
    have hz : isBreak z = false := by simpa using List.filter_eq_nil_iff.1 hnil z List.mem_cons_self
    rcases (List.forall_mem_cons.1 hu).1 with rfl | rfl | h
    · rfl
    · rfl
    · rw [h] at hz
      cases hz

/-- Blanks and line breaks begin a line if they are kept. -/
theorem keptStarts_spacing (hu : ∀ y ∈ u, Spacing y) (gap : Bool) (v : List Char) :
    (if Keeps gap (u.filter isBreak) ∧ beginsLine v = true then 1 else 0) + keptStarts false v ≤
      keptStarts gap (u ++ v) := by
  induction u generalizing gap with
  | nil => simpa [Keeps] using keptStarts_false_le gap v
  | cons y u ih =>
    obtain ⟨hy, hu⟩ := List.forall_mem_cons.1 hu
    have hmore := ih hu true
    by_cases hbreak : isBreak y = true
    · rw [List.filter_cons_of_pos hbreak, List.cons_append, keptStarts, hy.isGap]
      by_cases hnil : u.filter isBreak = []
      · have hlast : Keeps gap (y :: u.filter isBreak) ∧ beginsLine v = true →
            (isBreak y && (gap || y != '\n') && beginsLine (u ++ v)) = true := by
          rintro ⟨hkeeps, hv⟩
          rw [hnil] at hkeeps
          rw [hbreak, beginsLine_spacing hu hnil hv]
          simpa using hkeeps.2
        have hle := ite_le_ite_of_imp hlast
        omega
      · have hkeeps : Keeps true (u.filter isBreak) := ⟨hnil, .inl rfl⟩
        have hle := ite_le_ite_of_imp (fun h => ⟨hkeeps, h.2⟩ :
          Keeps gap (y :: u.filter isBreak) ∧ beginsLine v = true → _ ∧ beginsLine v = true)
        omega
    · have hbreak := eq_false_of_ne_true hbreak
      rw [List.filter_cons_of_neg (by simp [hbreak]), List.cons_append, keptStarts_cons hbreak, hy.isGap]
      refine Nat.le_trans (Nat.add_le_add_right (ite_le_ite_of_imp ?_) _) hmore
      exact fun h => ⟨⟨h.1.1, .inl rfl⟩, h.2⟩

/-- A scalar in single quotes begins with the character that stands there. -/
theorem SingleRead.head? (h : SingleRead v cs) (hv : ∀ y ∈ v.head?, ¬ Spacing y) :
    ∀ y ∈ cs.head?, v.head? = some y := by
  induction h with
  | close => exact nofun
  | quote _ _ => rintro y ⟨⟩; rfl
  | char _ _ _ _ => rintro y ⟨⟩; rfl
  | @gap u v cs hu hhead _ ih =>
    cases u with
    | nil => exact ih hhead
    | cons z u => exact absurd (hu z List.mem_cons_self) (hv z rfl)

/-- **A scalar in single quotes has no more lines than its text.** -/
theorem SingleRead.starts_le (h : SingleRead v cs) : starts cs ≤ keptStarts false v := by
  have hquote : isBreak '\'' = false := by decide
  induction h with
  | close => exact Nat.zero_le _
  | quote _ ih =>
    rw [starts_cons hquote, keptStarts_cons hquote, keptStarts_cons hquote]
    exact ih
  | char hgap _ _ ih =>
    rw [starts_cons (isBreak_of_isGap hgap), keptStarts_cons (isBreak_of_isGap hgap), hgap]
    exact ih
  | @gap u v cs hu hhead hread ih =>
    have hspacing := keptStarts_spacing hu false v
    have hline : beginsLine cs = true → beginsLine v = true := by
      intro hcs
      obtain ⟨y, hy⟩ : ∃ y, cs.head? = some y := by
        cases cs with
        | nil => cases hcs
        | cons y cs => exact ⟨y, rfl⟩
      rw [beginsLine, hread.head? hhead y hy, ← hy]
      exact hcs
    have hfilter : ∀ b ∈ u.filter isBreak, isBreak b = true := fun b hb => (List.mem_filter.1 hb).2
    rw [gapMeaning]
    split
    · refine Nat.le_trans (starts_foldBreaks hfilter cs) (Nat.le_trans (Nat.add_le_add ?_ ih) hspacing)
      exact ite_le_ite_of_imp fun h => ⟨h.1, hline h.2⟩
    · rename_i hany
      have hblanks : ∀ y ∈ u, isBreak y = false := by simpa using hany
      rw [starts_blanks hblanks]
      omega

/-! ## Written texts -/

/-- A text whose further lines are set in. -/
structure Hung (w : List Char) : Prop where
  hanging : Hanging w
  last : ∀ y ∈ w.getLast?, isBreak y = false

/-- A text whose further lines are set in and joined by single quotes. -/
structure Calm (w : List Char) : Prop extends Hung w where
  kept : keptStarts false w = 0

theorem Hung.append (hu : Hung u) (hv : Hung v) : Hung (u ++ v) where
  hanging := List.isChain_append.2 ⟨hu.hanging, hv.hanging, fun a ha b _ hbreak => by
    rw [hu.last a ha] at hbreak
    cases hbreak⟩
  last y hy := by
    rw [List.getLast?_append] at hy
    cases hlast : v.getLast? with
    | none => exact hu.last y (by rwa [hlast] at hy)
    | some z => exact hv.last y (by rwa [hlast] at hy ⊢)

theorem keptStarts_mono {gap next : Bool} (h : gap = true → next = true) (w : List Char) :
    keptStarts gap w ≤ keptStarts next w := by
  cases gap with
  | false => exact keptStarts_false_le next w
  | true => rw [h rfl]

/-- What begins in two texts begins in one of them. -/
theorem keptStarts_append {next : Bool} (hu : ∀ y ∈ u.getLast?, isBreak y = false)
    (hnext : ∀ y ∈ u.getLast?, isGap y = true → next = true) (v : List Char) :
    ∀ {gap : Bool}, (u = [] → gap = true → next = true) →
      keptStarts gap (u ++ v) ≤ keptStarts gap u + keptStarts next v := by
  induction u with
  | nil => exact fun hnil => by simpa [keptStarts] using keptStarts_mono (hnil rfl) v
  | cons y u ih =>
    intro gap _
    cases u with
    | nil =>
      have hy := hu y rfl
      rw [List.singleton_append, keptStarts_cons hy, keptStarts_cons hy]
      exact Nat.le_trans (keptStarts_mono (hnext y rfl) v) (Nat.le_add_left _ _)
    | cons z u =>
      rw [List.getLast?_cons_cons] at hu hnext
      have hmore : keptStarts (isGap y) (z :: u ++ v) ≤
          keptStarts (isGap y) (z :: u) + keptStarts next v := ih hu hnext nofun
      rw [List.cons_append, keptStarts, keptStarts, beginsLine_append (List.cons_ne_nil z u)]
      omega

theorem calm_of_line (h : ∀ y ∈ w, isBreak y = false) : Calm w where
  hanging := by
    simpa using hanging_append_line (u := []) .nil h fun _ => .inr rfl
  kept := by
    suffices hgap : ∀ gap, keptStarts gap w = 0 from hgap false
    induction w with
    | nil => exact fun _ => rfl
    | cons y w ih =>
      obtain ⟨hy, hw⟩ := List.forall_mem_cons.1 h
      exact fun gap => by rw [keptStarts_cons hy, ih hw]
  last y hy := h y (List.mem_of_getLast? hy)

/-- The end of a line and the start of a further one. -/
theorem calm_continued : Calm ('\n' :: indentation) where
  hanging := by
    rw [Hanging]
    decide
  kept := by decide
  last := by decide

/-- Where texts are joined no line begins. -/
theorem Calm.append (hu : Calm u) (hv : Calm v)
    (hjoint : (∀ y ∈ u.getLast?, isGap y = false) ∨ ∀ y ∈ v.head?, isBreak y = false) :
    Calm (u ++ v) where
  toHung := hu.toHung.append hv.toHung
  kept := by
    rcases hjoint with h | h
    · have hle := keptStarts_append hu.last (fun y hy hgap => by rw [h y hy] at hgap; cases hgap) v
        (fun _ hgap => hgap : u = [] → false = true → false = true)
      rwa [hu.kept, hv.kept, Nat.le_zero] at hle
    · have hle := keptStarts_append hu.last (fun _ _ _ => rfl) v
        (fun _ _ => rfl : u = [] → false = true → true = true)
      rwa [keptStarts_of_head h true, hu.kept, hv.kept, Nat.le_zero] at hle

/-- A further line. -/
theorem Calm.continued (hu : Calm u) (hgap : ∀ y ∈ u.getLast?, isGap y = false) (hv : Calm v)
    (hhead : ∀ y ∈ v.head?, isBreak y = false) : Calm (u ++ '\n' :: (indentation ++ v)) :=
  hu.append (calm_continued.append hv (.inr hhead)) (.inl hgap)

theorem isBreak_replicate (n : Nat) (hx : isBreak x = false) :
    ∀ y ∈ List.replicate n x, isBreak y = false := by
  intro y hy
  rwa [(List.mem_replicate.1 hy).2]

theorem Phrase.calm {flow : Bool} (h : Phrase flow cs w) : Calm w := by
  have hline {word : List Char} (hword : IsWord flow word) : ∀ y ∈ word, isBreak y = false :=
    fun y hy => isBreak_of_isGap (hword.solid y hy)
  induction h with
  | word _ hword => exact calm_of_line (hline hword)
  | @spaces word cs w n _ hword _ h ih =>
    obtain ⟨y, ys, rfl, hy⟩ := h.exists_head
    have hstart : Calm (word ++ List.replicate (n + 1) ' ') := calm_of_line
      (List.forall_mem_append.2 ⟨hline hword, isBreak_replicate _ (by decide)⟩)
    rw [← List.append_assoc]
    exact hstart.append ih (.inr (by rintro z ⟨⟩; exact isBreak_of_isGap hy))
  | @newline word cs w _ _ hword _ h ih =>
    obtain ⟨y, ys, rfl, hy⟩ := h.exists_head
    exact (calm_of_line (hline hword)).continued (fun z hz => hword.solid z (List.mem_of_getLast? hz)) ih
      (by rintro z ⟨⟩; exact isBreak_of_isGap hy)

/-- An escape is on one line. -/
theorem isBreak_escapeOf (x : Char) : ∀ y ∈ escapeOf x, isBreak y = false := by
  have hnamed : ∀ p ∈ escapes, isBreak p.1 = false := by decide
  have hnumbers : ∀ p ∈ numberMarks, isBreak p.1 = false := by decide
  rcases escapeOf_cases x with ⟨mark, hx, hmark, -⟩ | ⟨mark, width, hx, hmark, hwidth⟩
  · rw [hx]
    exact List.forall_mem_cons.2 ⟨by decide, by simpa using hnamed _ hmark⟩
  · rw [hx]
    refine List.forall_mem_cons.2 ⟨by decide, List.forall_mem_cons.2 ⟨hnumbers _ hmark, ?_⟩⟩
    exact fun y hy => ((hexNumber?_some (hexNumber?_upperDigits hwidth)).2 y hy).1

theorem DoubleForm.head? (h : DoubleForm cs w) : ∀ y ∈ w.head?, isBreak y = false := by
  cases h with
  | nil => exact nofun
  | char hx _ =>
    rintro y ⟨⟩
    exact (needsEscape_eq_false_iff.1 hx).2.2.isBreak
  | escape x _ =>
    obtain ⟨e, he⟩ := escapeOf_head x
    rw [he]
    rintro y ⟨⟩
    decide
  | space _ => rintro y ⟨⟩; decide
  | ended _ _ => rintro y ⟨⟩; decide

theorem DoubleForm.calm (h : DoubleForm cs w) : Calm w := by
  induction h with
  | nil => exact calm_of_line (by decide)
  | @char x cs w hx h ih =>
    have hx := (needsEscape_eq_false_iff.1 hx).2.2.isBreak
    exact (calm_of_line (w := [x]) (by simpa using hx)).append ih (.inr h.head?)
  | escape x h ih => exact (calm_of_line (isBreak_escapeOf x)).append ih (.inr h.head?)
  | space h ih => exact (calm_of_line (w := ['\\', ' ']) (by decide)).append ih (.inr h.head?)
  | ended _ h ih => exact (calm_of_line (w := ['\\']) (by decide)).continued (by decide) ih h.head?

theorem SingleForm.hung (h : SingleForm cs w) : Hung w := by
  induction h with
  | nil => exact (calm_of_line (by decide)).toHung
  | @char x cs w hx _ _ ih => exact (calm_of_line (w := [x]) (by simpa using hx.isBreak)).toHung.append ih
  | quote _ ih => exact (calm_of_line (w := ['\'', '\'']) (by decide)).toHung.append ih
  | spaces n _ _ ih => exact (calm_of_line (isBreak_replicate (n + 1) (by decide))).toHung.append ih
  | breaks n _ _ ih =>
    have hspacing : Hanging (List.replicate (n + 1) '\n' ++ indentation) := by
      rw [← List.nil_append (_ ++ _)]
      refine hanging_append_spacing .nil (List.forall_mem_append.2 ⟨fun y hy => .inr ?_, by decide⟩)
      rw [(List.mem_replicate.1 hy).2]
      decide
    have hbreaks : Hung (List.replicate (n + 1) '\n' ++ indentation) :=
      ⟨hspacing, by rw [List.getLast?_append_of_ne_nil _ (by decide)]; decide⟩
    rw [← List.append_assoc]
    exact hbreaks.append ih

/-- The quotes that a text in single quotes begins with. -/
theorem SingleForm.exists_quotes (h : SingleForm cs w) :
    ∃ k w', w = List.replicate (2 * k) '\'' ++ w' ∧ w'.head? ≠ some '\'' := by
  induction h with
  | nil => exact ⟨0, [], rfl, nofun⟩
  | char _ hquote _ _ => exact ⟨0, _, rfl, fun h => hquote (Option.some.inj h)⟩
  | quote _ ih =>
    obtain ⟨k, w', rfl, hw'⟩ := ih
    exact ⟨k + 1, w', rfl, hw'⟩
  | spaces n _ _ _ => exact ⟨0, _, rfl, nofun⟩
  | breaks n _ _ _ => exact ⟨0, _, rfl, nofun⟩

theorem ItemForm.hung (h : ItemForm s w) : Hung w := by
  cases h with
  | plain _ _ h => exact h.calm.toHung
  | single h =>
    exact (calm_of_line (w := ['\'']) (by decide)).toHung.append
      (h.hung.append (calm_of_line (w := ['\'']) (by decide)).toHung)
  | double h =>
    exact (calm_of_line (w := ['"']) (by decide)).toHung.append
      (h.calm.toHung.append (calm_of_line (w := ['"']) (by decide)).toHung)

theorem IsLead.calm {lead : List Char} (h : IsLead lead) : Calm lead := by
  rcases h with rfl | rfl | rfl
  · exact calm_of_line (by decide)
  · exact calm_of_line (by decide)
  · exact calm_continued

theorem ItemsForm.hung {ws : List Char} (h : ItemsForm ss ws) : Hung ws := by
  induction h with
  | last hlead h => exact hlead.calm.toHung.append h.hung
  | more hlead h _ ih =>
    exact hlead.calm.toHung.append
      (h.hung.append ((calm_of_line (w := [',']) (by decide)).toHung.append ih))

/-- A text is calm, or begins with an odd number of quotes. -/
theorem ItemForm.calm_or (h : ItemForm s w) : Calm w ∨
    ∃ k x w', w = List.replicate (2 * k + 1) '\'' ++ x :: w' ∧ x ≠ '\'' := by
  cases h with
  | plain _ _ h => exact .inl h.calm
  | @single w h =>
    obtain ⟨k, w', rfl, hw'⟩ := h.exists_quotes
    cases w' with
    | nil =>
      refine .inl (calm_of_line ?_)
      have hquotes := isBreak_replicate (2 * k) (by decide : isBreak '\'' = false)
      exact List.forall_mem_cons.2 ⟨by decide, List.forall_mem_append.2 ⟨by simpa using hquotes, by decide⟩⟩
    | cons x w' =>
      exact .inr ⟨k, x, w' ++ ['\''], by simp [List.replicate_succ], by simpa using hw'⟩
  | double h =>
    refine .inl ((calm_of_line (w := ['"']) (by decide)).append (h.calm.append
      (calm_of_line (w := ['"']) (by decide)) (.inr (by decide))) (.inl (by decide)))

/-- A text of a list begins in its own line. -/
theorem ItemForm.head? (h : ItemForm s w) : ∀ y ∈ (w ++ rest).head?, isBreak y = false := by
  obtain ⟨y, ys, rfl, hy, -⟩ := h.exists_head
  rintro z ⟨⟩
  exact isBreak_of_isGap hy

/-- **Before the first text of a list in single quotes no line begins.** -/
theorem ItemsForm.exists_single {ws : List Char} (h : ItemsForm ss ws) : ∃ P Q, ws = P ++ Q ∧ Calm P ∧
    (Q = [] ∨ P.getLast? ≠ some '\'' ∧
      ∃ k x Q', Q = List.replicate (2 * k + 1) '\'' ++ x :: Q' ∧ x ≠ '\'') := by
  have hlast {lead : List Char} (h : IsLead lead) : lead.getLast? ≠ some '\'' := by
    rcases h with rfl | rfl | rfl <;> decide
  induction h with
  | @last s lead w hlead h =>
    rcases h.calm_or with hcalm | ⟨k, x, w', rfl, hx⟩
    · refine ⟨lead ++ w, [], (List.append_nil _).symm, hlead.calm.append hcalm (.inr ?_), .inl rfl⟩
      have hhead : ∀ y ∈ (w ++ []).head?, isBreak y = false := h.head?
      rwa [List.append_nil] at hhead
    · exact ⟨lead, _, rfl, hlead.calm, .inr ⟨hlast hlead, k, x, w', rfl, hx⟩⟩
  | @more s ss lead w ws hlead h _ ih =>
    rcases h.calm_or with hcalm | ⟨k, x, w', rfl, hx⟩
    · obtain ⟨P, Q, rfl, hP, hQ⟩ := ih
      have hcomma : Calm [','] := calm_of_line (by decide)
      have hrest : Calm (',' :: P) := hcomma.append hP (.inl (by decide))
      refine ⟨lead ++ (w ++ ',' :: P), Q, by simp, ?_, hQ.imp_right (And.imp_left fun hP => ?_)⟩
      · exact hlead.calm.append (hcalm.append hrest (.inr (by rintro y ⟨⟩; decide))) (.inr h.head?)
      · rw [List.getLast?_append_of_ne_nil _ (by simp), List.getLast?_append_of_ne_nil _ (by simp),
          List.getLast?_cons]
        cases hlast : P.getLast? with
        | none => decide
        | some y => rwa [hlast] at hP
    · exact ⟨lead, _, rfl, hlead.calm, .inr ⟨hlast hlead, k, x, w' ++ ',' :: ws, by simp, hx⟩⟩

/-! ### Double quotes -/

variable {W : Weight}

theorem Phrase.total_eq {flow : Bool} (h : Phrase flow cs w) : W.total w = W.total cs := by
  induction h with
  | word _ _ => rfl
  | spaces n _ _ _ _ ih => rw [W.total_append, W.total_append, W.total_append, W.total_append, ih]
  | newline _ _ _ _ _ ih =>
    have hline : W.total ('\n' :: indentation) = 0 := Weight.total_of_gaps (by decide)
    have hspace : W.of ' ' = 0 := W.of_gap ' ' (by decide)
    rw [← List.cons_append, W.total_append, W.total_append, W.total_append, W.total_cons ' ', hline,
      hspace, ih]

/-- Only quotes are added to a text in single quotes. -/
theorem SingleForm.total_le (hquote : W.of '\'' = 0) (h : SingleForm cs w) : W.total w ≤ W.total cs := by
  induction h with
  | nil => exact Nat.le_refl 0
  | char _ _ _ ih => rw [W.total_cons, W.total_cons]; omega
  | quote _ ih => rw [W.total_cons, W.total_cons, W.total_cons, hquote]; omega
  | spaces n _ _ ih => rw [W.total_append, W.total_append]; omega
  | @breaks cs w n _ _ ih =>
    have hline : W.total (List.replicate (n + 1) '\n' ++ indentation) = 0 :=
      Weight.total_of_gaps (List.forall_mem_append.2
        ⟨fun y hy => by rw [(List.mem_replicate.1 hy).2]; decide, by decide⟩)
    rw [← List.append_assoc, W.total_append _ w, W.total_append _ cs, hline]
    omega

/-- A text without double quotes weighs no less than what is written for it. -/
theorem ItemForm.total_le_or (hquote : W.of '\'' = 0) (h : ItemForm s w) :
    W.total w ≤ W.total s.toList ∨ ∃ w', w = '"' :: w' := by
  cases h with
  | plain _ _ h => exact .inl (Nat.le_of_eq h.total_eq)
  | single h =>
    have hle := h.total_le hquote
    refine .inl ?_
    rw [W.total_cons, W.total_append, W.total_cons, hquote, W.total_nil]
    omega
  | double h => exact .inr ⟨_, rfl⟩

theorem IsLead.total_eq {lead : List Char} (h : IsLead lead) : W.total lead = 0 := by
  refine Weight.total_of_gaps ?_
  rcases h with rfl | rfl | rfl <;> decide

/-- **What stands before the first text of a list in double quotes weighs no more than the texts.** -/
theorem ItemsForm.exists_double (hquote : W.of '\'' = 0) (hcomma : W.of ',' = 0) {ws : List Char}
    (h : ItemsForm ss ws) : ∃ P Q, ws = P ++ Q ∧ W.total P ≤ W.texts ss ∧
      (Q = [] ∨ P.getLast? ≠ some '\\' ∧ ∃ Q', Q = '"' :: Q') := by
  have hlast {lead : List Char} (h : IsLead lead) : lead.getLast? ≠ some '\\' := by
    rcases h with rfl | rfl | rfl <;> decide
  have hlead {lead : List Char} (h : IsLead lead) (n : Nat) : W.total lead ≤ n := by
    rw [h.total_eq]
    exact Nat.zero_le n
  induction h with
  | @last s lead w h hitem =>
    rcases hitem.total_le_or hquote with hle | ⟨w', rfl⟩
    · refine ⟨lead ++ w, [], (List.append_nil _).symm, ?_, .inl rfl⟩
      rw [W.total_append, h.total_eq, Nat.zero_add]
      exact hle
    · exact ⟨lead, _, rfl, hlead h _, .inr ⟨hlast h, w', rfl⟩⟩
  | @more s ss lead w ws h hitem _ ih =>
    rcases hitem.total_le_or hquote with hle | ⟨w', rfl⟩
    · obtain ⟨P, Q, rfl, hP, hQ⟩ := ih
      refine ⟨lead ++ (w ++ ',' :: P), Q, by simp, ?_, hQ.imp_right (And.imp_left fun hP => ?_)⟩
      · rw [W.total_append, W.total_append, W.total_cons, h.total_eq, hcomma, Weight.texts]
        omega
      · rw [List.getLast?_append_of_ne_nil _ (by simp), List.getLast?_append_of_ne_nil _ (by simp),
          List.getLast?_cons]
        cases hlast : P.getLast? with
        | none => decide
        | some y => rwa [hlast] at hP
    · exact ⟨lead, '"' :: (w' ++ ',' :: ws), by simp, hlead h _, .inr ⟨hlast h, _, rfl⟩⟩

end DeclGraph.Yaml
