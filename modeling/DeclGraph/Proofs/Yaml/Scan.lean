/-
  What is passed over in a text.

  From one place to another a part of the text is passed.  What is read depends on this part alone,
  and its columns and lines can be told from its line breaks.

  * `Cursor.Passes`: the part of a text between two places;
  * `gapMeaning`: what blanks and line breaks mean;
  * `PlainRead`, `SingleRead` and `DoubleRead`: what a part of a text means as a scalar;
  * `plain_read`, `single?_read` and `double?_read`: what is read is what the part of the text means
    that is passed.
-/
import DeclGraph.Proofs.Yaml.Line

namespace DeclGraph.Yaml

open Cursor

variable {c c' c'' : Cursor} {u v w cs rest : List Char} {y : Char}

/-! ## Places -/

/-- Whether a text ends at the start of a line, if it is not empty. -/
def EndsLine (w : List Char) : Prop := ∀ y ∈ w.getLast?, isBreak y = true

theorem endsLine_append (hv : v ≠ []) : EndsLine (u ++ v) ↔ EndsLine v := by
  rw [EndsLine, List.getLast?_append_of_ne_nil _ hv]
  rfl

/-- From one place to another a text is passed. -/
structure Cursor.Passes (c : Cursor) (w : List Char) (c' : Cursor) : Prop where
  rest_eq : c.rest = w ++ c'.rest
  line_eq : c'.line = c.line + w.countP isBreak
  column_eq_zero : c'.column = 0 ↔ EndsLine w ∧ (w = [] → c.column = 0)

theorem Cursor.Passes.refl (c : Cursor) : c.Passes [] c :=
  ⟨rfl, rfl, fun h => ⟨nofun, fun _ => h⟩, fun h => h.2 rfl⟩

theorem Cursor.Passes.trans (h : c.Passes u c') (h' : c'.Passes v c'') : c.Passes (u ++ v) c'' where
  rest_eq := by rw [h.rest_eq, h'.rest_eq, List.append_assoc]
  line_eq := by rw [h'.line_eq, h.line_eq, List.countP_append, Nat.add_assoc]
  column_eq_zero := by
    rw [h'.column_eq_zero]
    by_cases hv : v = []
    · subst hv
      rw [List.append_nil, h.column_eq_zero]
      exact ⟨fun h => h.2 rfl, fun h => ⟨nofun, fun _ => h⟩⟩
    · rw [endsLine_append hv]
      exact and_congr_right fun _ =>
        ⟨fun _ huv => absurd (List.append_eq_nil_iff.1 huv).2 hv, fun _ hnil => absurd hnil hv⟩

/-- Whether blanks stand before a place on its line does not matter. -/
theorem Cursor.Passes.fresh (h : c.Passes w c') (b : Bool) : c.Passes w { c' with fresh := b } :=
  ⟨h.rest_eq, h.line_eq, h.column_eq_zero⟩

theorem passes_forward (h : c.rest = w ++ rest) (hw : ∀ y ∈ w, isBreak y = false) :
    c.Passes w (c.forward w.length) where
  rest_eq := by
    rw [Cursor.forward, h, List.drop_left]
  line_eq := by
    have hcount : w.countP isBreak = 0 := List.countP_eq_zero.2 fun y hy => by simp [hw y hy]
    rw [hcount]
    rfl
  column_eq_zero := by
    rw [Cursor.forward]
    cases w with
    | nil =>
      refine ⟨fun h => ⟨?_, fun _ => h⟩, fun h => h.2 rfl⟩
      rintro y ⟨⟩
    | cons y w =>
      refine ⟨fun h => absurd h (by simp), fun h => ?_⟩
      obtain ⟨z, hz⟩ : ∃ z, (y :: w).getLast? = some z := ⟨_, List.getLast?_cons⟩
      have hbreak := h.1 z hz
      rw [hw z (List.mem_of_getLast? hz)] at hbreak
      cases hbreak

theorem passes_one (h : c.rest = y :: rest) (hy : isBreak y = false) : c.Passes [y] (c.forward 1) :=
  passes_forward (w := [y]) h (by simpa using hy)

theorem passes_jumpTo (h : c.rest = w ++ rest) (hw : ∀ y ∈ w, isBreak y = false) :
    c.Passes w (c.jumpTo rest) := by
  rw [jumpTo_append h]
  exact passes_forward h hw

theorem passes_takeWhile (p : Char → Bool) (hp : ∀ y, p y = true → isBreak y = false) :
    c.Passes (c.rest.takeWhile p) (c.forward (c.rest.takeWhile p).length) :=
  passes_forward (List.takeWhile_append_dropWhile).symm
    fun y hy => hp y (List.mem_takeWhile_imp hy)

/-- A mark and a name after it are passed. -/
theorem passes_name (h : c.rest = y :: rest) (hy : isBreak y = false) (p : Char → Bool)
    (hp : ∀ z, p z = true → isBreak z = false) :
    c.Passes (y :: rest.takeWhile p) (c.jumpTo (rest.drop (rest.takeWhile p).length)) := by
  refine passes_jumpTo ?_ (List.forall_mem_cons.2 ⟨hy, fun z hz => hp z (List.mem_takeWhile_imp hz)⟩)
  rw [h, List.cons_append, List.prefix_iff_eq_append.1 (List.takeWhile_prefix p)]

theorem passes_newline (h : c.rest = y :: rest) (hy : isBreak y = true) : c.Passes [y] c.newline := by
  rw [newline_eq h]
  exact ⟨h, by rw [List.countP_cons, hy]; rfl, fun _ => ⟨by rintro z ⟨⟩; exact hy, nofun⟩, fun _ => rfl⟩

theorem head_drop_takeWhile (p : Char → Bool) (cs : List Char) :
    ∀ y ∈ (cs.drop (cs.takeWhile p).length).head?, p y = false := by
  induction cs with
  | nil => exact nofun
  | cons z cs ih =>
    by_cases hz : p z = true
    · rw [List.takeWhile_cons_of_pos hz]
      exact ih
    · rw [List.takeWhile_cons_of_neg hz]
      rintro y ⟨⟩
      exact eq_false_of_ne_true hz

/-- What is passed on the way to the next token. -/
theorem passes_skip (c : Cursor) : ∃ w, c.Passes w c.skip := by
  obtain ⟨text, line, column, fresh⟩ := c
  suffices h : ∀ (text : List Char) (line column : Nat) (fresh comment : Bool),
      ∃ w, Passes ⟨text, line, column, fresh⟩ w (skip.go line column fresh comment text) from
    h text line column fresh false
  intro text
  induction text with
  | nil => exact fun line column fresh _ => ⟨[], .refl _⟩
  | cons y rest ih =>
    intro line column fresh comment
    rw [skip.go]
    split
    · rename_i hy
      obtain ⟨w, hw⟩ := ih (line + 1) 0 true false
      exact ⟨y :: w, .trans (passes_newline rfl hy) hw⟩
    rename_i hy
    have hstep : Passes ⟨y :: rest, line, column, fresh⟩ [y] ⟨rest, line, column + 1, fresh⟩ :=
      (passes_one rfl (eq_false_of_ne_true hy)).fresh fresh
    split
    · obtain ⟨w, hw⟩ := ih line (column + 1) fresh true
      exact ⟨y :: w, hstep.trans hw⟩
    split
    · obtain ⟨w, hw⟩ := ih line (column + 1) fresh false
      exact ⟨y :: w, hstep.trans hw⟩
    · exact ⟨[], .refl _⟩

/-! ## Blanks -/

/-- What blanks and line breaks mean. -/
def gapMeaning (u : List Char) : List Char :=
  if u.any isBreak then foldBreaks (u.filter isBreak) else u

theorem gapMeaning_blanks (h : ∀ y ∈ u, isBreak y = false) : gapMeaning u = u := by
  rw [gapMeaning, if_neg]
  rw [List.any_eq_true]
  rintro ⟨y, hy, hbreak⟩
  rw [h y hy] at hbreak
  cases hbreak

theorem length_foldBreaks (bs : List Char) : (foldBreaks bs).length ≤ bs.length := by
  cases bs with
  | nil => exact Nat.le_refl 0
  | cons b bs =>
    rw [foldBreaks]
    split_ifs <;> simp

theorem isGap_of_mem_foldBreaks {bs : List Char} (h : ∀ b ∈ bs, isGap b = true) :
    ∀ y ∈ foldBreaks bs, isGap y = true := by
  cases bs with
  | nil => exact nofun
  | cons b bs =>
    rw [foldBreaks]
    split_ifs
    · exact h
    · simp [isGap]
    · exact fun y hy => h y (List.mem_cons_of_mem b hy)

theorem isGap_of_mem_gapMeaning (h : ∀ y ∈ u, isGap y = true) : ∀ y ∈ gapMeaning u, isGap y = true := by
  rw [gapMeaning]
  split_ifs
  · exact isGap_of_mem_foldBreaks fun b hb => h b (List.mem_of_mem_filter hb)
  · exact h

/-- The blanks of a text, and its line breaks. -/
theorem filter_isBreak_append (hu : ∀ y ∈ u, isBreak y = false) :
    (u ++ v).filter isBreak = v.filter isBreak := by
  rw [List.filter_append, List.filter_eq_nil_iff.2 fun y hy => by simp [hu y hy], List.nil_append]

theorem gapMeaning_breaks (hu : ∀ y ∈ u, isBreak y = false) (hy : isBreak y = true) :
    gapMeaning (u ++ y :: v) = foldBreaks ((y :: v).filter isBreak) := by
  rw [gapMeaning, filter_isBreak_append hu, if_pos (by simp [hy])]

/-! ## Plain scalars -/

theorem breaks?_passes {bs : List Char} {fuel : Nat} : ∀ {c : Cursor},
    breaks? fuel c = some (bs, c') → ∃ u, c.Passes u c' ∧ (∀ y ∈ u, y = ' ' ∨ isBreak y = true) ∧
      bs = u.filter isBreak ∧ ∀ y ∈ c'.rest.head?, isBreak y = false := by
  induction fuel generalizing bs with
  | zero => exact fun h => nomatch h
  | succ fuel ih =>
    intro c h
    rw [breaks?] at h
    split at h
    · cases h
    cases hrest : c.rest with
    | nil =>
      rw [hrest] at h
      cases h
      exact ⟨[], .refl _, List.forall_mem_nil _, rfl, by simp [hrest]⟩
    | cons y rest =>
      rw [hrest] at h
      dsimp only at h
      split at h
      · rename_i hspace
        obtain rfl := eq_of_beq hspace
        obtain ⟨u, hu, hgaps, hbs, hhead⟩ := ih h
        refine ⟨' ' :: u, ((passes_one hrest (by decide)).fresh c.fresh).trans hu, ?_, ?_, hhead⟩
        · exact List.forall_mem_cons.2 ⟨.inl rfl, hgaps⟩
        · rw [List.filter_cons_of_neg (by decide), hbs]
      split at h
      · rename_i hbreak
        obtain ⟨⟨bs', c''⟩, hmore, heq⟩ := Option.map_eq_some_iff.1 h
        obtain ⟨rfl, rfl⟩ := Prod.mk.inj heq
        obtain ⟨u, hu, hgaps, rfl, hhead⟩ := ih hmore
        refine ⟨y :: u, (passes_newline hrest hbreak).trans hu, ?_, ?_, hhead⟩
        · exact List.forall_mem_cons.2 ⟨.inr hbreak, hgaps⟩
        · rw [List.filter_cons_of_pos hbreak]
      · rename_i hbreak
        cases h
        refine ⟨[], .refl _, List.forall_mem_nil _, rfl, ?_⟩
        rw [hrest]
        rintro z ⟨⟩
        exact eq_false_of_ne_true hbreak

theorem plainGap?_passes {gap : List Char} (h : plainGap? c = some (gap, c')) :
    ∃ u, c.Passes u c' ∧ (∀ y ∈ u, y = ' ' ∨ isBreak y = true) ∧ gap = gapMeaning u := by
  have hspace (y : Char) (hy : (y == ' ') = true) : isBreak y = false := by
    rw [eq_of_beq hy]
    rfl
  have hspaces := passes_takeWhile (c := c) (· == ' ') hspace
  have hblank : ∀ y ∈ c.rest.takeWhile (· == ' '), y = ' ' :=
    fun y hy => by simpa using List.mem_takeWhile_imp hy
  have hline : ∀ y ∈ c.rest.takeWhile (· == ' '), isBreak y = false :=
    fun y hy => by rw [hblank y hy]; rfl
  rw [plainGap?] at h
  dsimp only at h
  split at h
  · rename_i ch rest hrest
    split at h
    · rename_i hbreak
      obtain ⟨⟨bs, c''⟩, hbreaks, heq⟩ := Option.map_eq_some_iff.1 h
      obtain ⟨rfl, rfl⟩ := Prod.mk.inj heq
      obtain ⟨u, hu, hgaps, rfl, hhead⟩ := breaks?_passes hbreaks
      refine ⟨_, hspaces.trans hu, List.forall_mem_append.2 ⟨fun y hy => .inl (hblank y hy), hgaps⟩, ?_⟩
      cases u with
      | nil =>
        have hnext : c''.rest = ch :: rest := by rw [← hrest, hu.rest_eq]; rfl
        rw [hnext] at hhead
        rw [hhead ch rfl] at hbreak
        cases hbreak
      | cons z u =>
        rw [hu.rest_eq] at hrest
        obtain ⟨rfl, -⟩ := List.cons.inj hrest
        rw [gapMeaning_breaks hline hbreak]
    · cases h
      exact ⟨_, hspaces, fun y hy => .inl (hblank y hy), (gapMeaning_blanks hline).symm⟩
  · cases h
    exact ⟨_, hspaces, fun y hy => .inl (hblank y hy), (gapMeaning_blanks hline).symm⟩

/-- What a part of a text means without quotes.  Outside of flow style a space stands before every word
    of a further line. -/
inductive PlainRead (indented : Bool) : List Char → List Char → Prop where
  | word {word : List Char} : (∀ y ∈ word, isGap y = false) → PlainRead indented word word
  | more {word u v cs : List Char} : (∀ y ∈ word, isGap y = false) →
    (∀ y ∈ u, y = ' ' ∨ isBreak y = true) → (indented = true → u.getLast? = some ' ') →
    (∀ y ∈ v.head?, isGap y = false) → PlainRead indented v cs →
    PlainRead indented (word ++ (u ++ v)) (word ++ (gapMeaning u ++ cs))

theorem isGap_of_mem_plainRun {flow : Bool} {word : List Char} (h : plainRun flow cs = (word, rest)) :
    ∀ y ∈ word, isGap y = false := by
  induction cs generalizing word with
  | nil => cases h; exact nofun
  | cons z cs ih =>
    rw [plainRun] at h
    split at h
    · cases h
      exact nofun
    · rename_i hgo
      obtain ⟨rfl, rfl⟩ := Prod.mk.inj h
      simp only [Bool.or_eq_true, not_or] at hgo
      exact List.forall_mem_cons.2 ⟨eq_false_of_ne_true hgo.1.1, ih rfl⟩

theorem isGap_head_of_plainRun {flow : Bool} (h : (plainRun flow cs).1 ≠ []) :
    ∀ y ∈ cs.head?, isGap y = false := by
  cases cs with
  | nil => exact fun _ hy => nomatch hy
  | cons z cs =>
    rintro y ⟨⟩
    rw [plainRun] at h
    split at h
    · exact absurd rfl h
    · rename_i hgo
      simp only [Bool.or_eq_true, not_or] at hgo
      exact eq_false_of_ne_true hgo.1.1

/-- Within a line a gap ends with a space. -/
theorem getLast?_of_column_ne_zero (hu : c.Passes u c') (hgaps : ∀ y ∈ u, y = ' ' ∨ isBreak y = true)
    (hne : u ≠ []) (hcolumn : c'.column ≠ 0) : u.getLast? = some ' ' := by
  obtain ⟨u, z, rfl⟩ : ∃ u' z, u = u' ++ [z] := (List.eq_nil_or_concat' u).resolve_left hne
  rw [List.getLast?_concat]
  refine congrArg some ((hgaps z (by simp)).resolve_right fun hbreak => hcolumn ?_)
  exact hu.column_eq_zero.2 ⟨by simpa [EndsLine] using hbreak, fun hnil => absurd hnil (by simp)⟩

/-- What is read without quotes is what is passed. -/
theorem plain_read {flow : Bool} {indent : Int} (indented : Bool)
    (hindented : indented = true → flow = false ∧ 0 ≤ indent) {fuel : Nat} :
    ∀ {c : Cursor} {s : List Char}, plain flow indent fuel c = (s, c') →
      ∃ v, c.Passes v c' ∧ PlainRead indented v s := by
  induction fuel with
  | zero =>
    intro c s h
    cases h
    exact ⟨[], .refl _, PlainRead.word nofun⟩
  | succ fuel ih =>
    intro c s h
    obtain ⟨word, rest, hrun⟩ : ∃ word rest, plainRun flow c.rest = (word, rest) := ⟨_, _, rfl⟩
    have hword := isGap_of_mem_plainRun hrun
    have hpass := passes_jumpTo (eq_of_plainRun hrun) fun y hy => isBreak_of_isGap (hword y hy)
    rw [plain, hrun] at h
    dsimp only at h
    cases hgap : plainGap? (c.jumpTo rest) with
    | none =>
      rw [hgap] at h
      cases h
      exact ⟨_, hpass, PlainRead.word hword⟩
    | some found =>
      obtain ⟨gap, next⟩ := found
      rw [hgap] at h
      dsimp only at h
      split at h
      · cases h
        exact ⟨_, hpass, PlainRead.word hword⟩
      rename_i hgo
      simp only [not_or, not_and] at hgo
      obtain ⟨hne, -, hmore, hcolumn⟩ := hgo
      obtain ⟨u, hu, hgaps, rfl⟩ := plainGap?_passes hgap
      obtain ⟨tail, after, htail⟩ : ∃ tail after, plain flow indent fuel next = (tail, after) :=
        ⟨_, _, rfl⟩
      rw [htail] at h
      obtain ⟨rfl, rfl⟩ := Prod.mk.inj h
      obtain ⟨v, hv, hread⟩ := ih htail
      refine ⟨word ++ (u ++ v), hpass.trans (hu.trans hv), ?_⟩
      rw [List.append_assoc]
      refine PlainRead.more hword hgaps (fun hind => ?_) (fun y hy => ?_) hread
      · obtain ⟨hflow, hindent⟩ := hindented hind
        refine getLast?_of_column_ne_zero hu hgaps (fun hnil => hne (by rw [hnil]; rfl)) fun hzero => ?_
        exact hcolumn (by simpa using hflow) (by rw [hzero]; exact hindent)
      · refine isGap_head_of_plainRun hmore y ?_
        rw [hv.rest_eq, List.head?_append, hy]
        rfl

/-! ## Quoted scalars -/

/-- A blank or a line break in a quoted scalar. -/
def Spacing (y : Char) : Prop := y = ' ' ∨ y = '\t' ∨ isBreak y = true

instance (y : Char) : Decidable (Spacing y) := inferInstanceAs (Decidable (_ ∨ _ ∨ _))

theorem Spacing.isGap (h : Spacing y) : isGap y = true := by
  rcases h with rfl | rfl | h
  · rfl
  · rfl
  · rw [Yaml.isGap, h, Bool.or_true]

theorem quotedBreaks?_passes {bs : List Char} {fuel : Nat} : ∀ {c : Cursor},
    quotedBreaks? fuel c = some (bs, c') → ∃ u, c.Passes u c' ∧ (∀ y ∈ u, Spacing y) ∧
      bs = u.filter isBreak ∧ ∀ y ∈ c'.rest.head?, ¬ Spacing y := by
  induction fuel generalizing bs with
  | zero => exact fun h => nomatch h
  | succ fuel ih =>
    intro c h
    rw [quotedBreaks?] at h
    split at h
    · cases h
    cases hrest : c.rest with
    | nil =>
      rw [hrest] at h
      cases h
    | cons y rest =>
      rw [hrest] at h
      dsimp only at h
      split at h
      · rename_i hblank
        have hblank' : y = ' ' ∨ y = '\t' := by simpa using hblank
        have hbreak : isBreak y = false := by rcases hblank' with rfl | rfl <;> rfl
        obtain ⟨u, hu, hgaps, hbs, hhead⟩ := ih h
        refine ⟨y :: u, (passes_one hrest hbreak).trans hu, ?_, ?_, hhead⟩
        · exact List.forall_mem_cons.2 ⟨hblank'.elim .inl fun h => .inr (.inl h), hgaps⟩
        · rw [List.filter_cons_of_neg (by simp [hbreak]), hbs]
      rename_i hblank
      split at h
      · rename_i hbreak
        obtain ⟨⟨bs', c''⟩, hmore, heq⟩ := Option.map_eq_some_iff.1 h
        obtain ⟨rfl, rfl⟩ := Prod.mk.inj heq
        obtain ⟨u, hu, hgaps, rfl, hhead⟩ := ih hmore
        have hline := (passes_newline hrest hbreak).fresh false
        refine ⟨y :: u, hline.trans hu, ?_, ?_, hhead⟩
        · exact List.forall_mem_cons.2 ⟨.inr (.inr hbreak), hgaps⟩
        · rw [List.filter_cons_of_pos hbreak]
      · rename_i hbreak
        cases h
        refine ⟨[], .refl _, List.forall_mem_nil _, rfl, ?_⟩
        rw [hrest]
        rintro z ⟨⟩
        have hblank' : ¬ (y = ' ' ∨ y = '\t') := by simpa using hblank
        rintro (h | h | h)
        · exact hblank' (.inl h)
        · exact hblank' (.inr h)
        · exact hbreak h

theorem quotedGap?_passes {gap : List Char} (h : quotedGap? c = some (gap, c')) :
    ∃ u, c.Passes u c' ∧ (∀ y ∈ u, Spacing y) ∧ gap = gapMeaning u ∧
      ∀ y ∈ c'.rest.head?, ¬ Spacing y := by
  have hblank (y : Char) (hy : (y == ' ' || y == '\t') = true) :
      Spacing y ∧ isBreak y = false := by
    rcases (by simpa using hy : y = ' ' ∨ y = '\t') with rfl | rfl <;> decide
  obtain ⟨blanks, hblanks⟩ :
      ∃ blanks, blanks = c.rest.takeWhile fun ch => ch == ' ' || ch == '\t' := ⟨_, rfl⟩
  have hpass : c.Passes blanks (c.forward blanks.length) := by
    rw [hblanks]
    exact passes_takeWhile _ fun y hy => (hblank y hy).2
  have hmem : ∀ y ∈ blanks, Spacing y ∧ isBreak y = false := by
    rw [hblanks]
    exact fun y hy => hblank y (by simpa using List.mem_takeWhile_imp hy)
  rw [quotedGap?, ← hblanks] at h
  dsimp only at h
  split at h
  · cases h
  · rename_i ch rest hrest
    split at h
    · rename_i hbreak
      obtain ⟨⟨bs, c''⟩, hbreaks, heq⟩ := Option.map_eq_some_iff.1 h
      obtain ⟨rfl, rfl⟩ := Prod.mk.inj heq
      obtain ⟨u, hu, hgaps, rfl, hhead⟩ := quotedBreaks?_passes hbreaks
      refine ⟨_, hpass.trans hu, List.forall_mem_append.2 ⟨fun y hy => (hmem y hy).1, hgaps⟩, ?_,
        hhead⟩
      cases u with
      | nil =>
        have hnext : c''.rest = ch :: rest := by rw [← hrest, hu.rest_eq]; rfl
        rw [hnext] at hhead
        exact absurd (.inr (.inr hbreak)) (hhead ch rfl)
      | cons z u =>
        rw [hu.rest_eq] at hrest
        obtain ⟨rfl, -⟩ := List.cons.inj hrest
        rw [gapMeaning_breaks (fun y hy => (hmem y hy).2) hbreak]
    · rename_i hbreak
      obtain ⟨rfl, rfl⟩ := Prod.mk.inj (Option.some.inj h)
      refine ⟨_, hpass, fun y hy => (hmem y hy).1, (gapMeaning_blanks fun y hy => (hmem y hy).2).symm, ?_⟩
      rw [hrest]
      rintro z ⟨⟩
      have hstop := head_drop_takeWhile (fun ch => ch == ' ' || ch == '\t') c.rest ch
      rw [← hblanks, show c.rest.drop blanks.length = ch :: rest from hrest] at hstop
      have hblank' : ¬ (ch = ' ' ∨ ch = '\t') := by simpa using hstop rfl
      rintro (h | h | h)
      · exact hblank' (.inl h)
      · exact hblank' (.inr h)
      · exact hbreak h

/-- What a part of a text means after a single quote, up to the closing one. -/
inductive SingleRead : List Char → List Char → Prop where
  | close : SingleRead ['\''] []
  | quote {v cs : List Char} : SingleRead v cs → SingleRead ('\'' :: '\'' :: v) ('\'' :: cs)
  | char {y : Char} {v cs : List Char} : isGap y = false → y ≠ '\'' → SingleRead v cs →
    SingleRead (y :: v) (y :: cs)
  | gap {u v cs : List Char} : (∀ y ∈ u, Spacing y) → (∀ y ∈ v.head?, ¬ Spacing y) →
    SingleRead v cs → SingleRead (u ++ v) (gapMeaning u ++ cs)

theorem head?_of_passes (h : c.Passes (y :: v) c') : c.rest.head? = some y := by
  rw [h.rest_eq]
  rfl

/-- Not even a quote is left of a text that is passed up to it. -/
theorem SingleRead.ne_nil (h : SingleRead v cs) : v ≠ [] := by
  induction h with
  | close => exact List.cons_ne_nil _ _
  | quote _ _ => exact List.cons_ne_nil _ _
  | char _ _ _ _ => exact List.cons_ne_nil _ _
  | gap _ _ _ ih => exact List.append_ne_nil_of_right_ne_nil _ ih

/-- What is read after a single quote is what is passed. -/
theorem single?_read {fuel : Nat} : ∀ {c : Cursor} {cs : List Char},
    single? fuel c = some (cs, c') → ∃ v, c.Passes v c' ∧ SingleRead v cs := by
  induction fuel with
  | zero => exact fun h => nomatch h
  | succ fuel ih =>
    intro c cs h
    have hquote : isBreak '\'' = false := by decide
    rw [single?] at h
    split at h
    · cases h
    · rename_i rest hrest
      obtain ⟨⟨cs', c''⟩, hmore, heq⟩ := Option.map_eq_some_iff.1 h
      obtain ⟨rfl, rfl⟩ := Prod.mk.inj heq
      obtain ⟨v, hv, hread⟩ := ih hmore
      have hpass : c.Passes ['\'', '\''] (c.forward 2) := passes_forward hrest (by decide)
      exact ⟨_, hpass.trans hv, .quote hread⟩
    · rename_i hrest
      cases h
      exact ⟨_, passes_one hrest hquote, .close⟩
    · rename_i ch rest hne hne' hrest
      split at h
      · simp only [Option.bind_eq_bind, Option.bind_eq_some_iff] at h
        obtain ⟨⟨gap, next⟩, hgap, ⟨cs', c''⟩, hmore, heq⟩ := h
        cases heq
        obtain ⟨u, hu, hspacing, rfl, hhead⟩ := quotedGap?_passes hgap
        obtain ⟨v, hv, hread⟩ := ih hmore
        refine ⟨_, hu.trans hv, .gap hspacing (fun y hy => hhead y ?_) hread⟩
        obtain ⟨v, rfl⟩ := List.head?_eq_some_iff.1 hy
        exact head?_of_passes hv
      · rename_i hgap
        obtain ⟨⟨cs', c''⟩, hmore, heq⟩ := Option.map_eq_some_iff.1 h
        obtain ⟨rfl, rfl⟩ := Prod.mk.inj heq
        obtain ⟨v, hv, hread⟩ := ih hmore
        have hsolid := eq_false_of_ne_true hgap
        refine ⟨_, (passes_one hrest (isBreak_of_isGap hsolid)).trans hv, .char hsolid ?_ hread⟩
        rintro rfl
        exact hne' rfl

/-- What a part of a text means after a double quote, up to the closing one. -/
inductive DoubleRead : List Char → List Char → Prop where
  | close : DoubleRead ['"'] []
  | char {y : Char} {v cs : List Char} : isGap y = false → y ≠ '"' → DoubleRead v cs →
    DoubleRead (y :: v) (y :: cs)
  | escape {mark y : Char} {e v cs : List Char} : (∀ z ∈ e, z ≠ '"') → DoubleRead v cs →
    DoubleRead ('\\' :: mark :: (e ++ v)) (y :: cs)
  | ended {b : Char} {u v cs : List Char} : (∀ y ∈ u, Spacing y) → isBreak b = true →
    DoubleRead v cs → DoubleRead ('\\' :: b :: (u ++ v)) (u.filter isBreak ++ cs)
  | gap {u v cs : List Char} : (∀ y ∈ u, Spacing y) → DoubleRead v cs →
    DoubleRead (u ++ v) (gapMeaning u ++ cs)

/-- A character of an escape by number. -/
theorem ne_of_hexValue? {n : Nat} (h : Json.hexValue? y = some n) : isBreak y = false ∧ y ≠ '"' := by
  have hnone : ∀ z ∈ ['\n', '\r', '\u0085', '\u2028', '\u2029', '"'], Json.hexValue? z = none := by
    decide
  have hne {z : Char} (hz : z ∈ ['\n', '\r', '\u0085', '\u2028', '\u2029', '"']) : y ≠ z := by
    rintro rfl
    rw [hnone y hz] at h
    cases h
  refine ⟨eq_false_of_ne_true fun hbreak => ?_, hne (by simp)⟩
  exact hne (List.mem_append_left ['"'] (isBreak_iff.1 hbreak)) rfl

theorem hexNumber?_some {n : Nat} : ∀ {start : Option Nat},
    cs.foldl (fun n c => do return 16 * (← n) + (← Json.hexValue? c)) start = some n →
      start ≠ none ∧ ∀ y ∈ cs, isBreak y = false ∧ y ≠ '"' := by
  induction cs with
  | nil => exact fun {start} h => ⟨by rw [show start = some n from h]; exact nofun, nofun⟩
  | cons z cs ih =>
    intro start h
    obtain ⟨hstart, hcs⟩ := ih h
    obtain ⟨k, hk⟩ := Option.ne_none_iff_exists'.1 hstart
    simp only [Option.bind_eq_bind, Option.bind_eq_some_iff] at hk
    obtain ⟨m, rfl, d, hd, -⟩ := hk
    exact ⟨nofun, List.forall_mem_cons.2 ⟨ne_of_hexValue? hd, hcs⟩⟩

theorem unit?_some {n : Nat} (h : Json.unit? cs = some (n, rest)) :
    ∃ e, cs = e ++ rest ∧ e.length = 4 ∧ ∀ y ∈ e, isBreak y = false ∧ y ≠ '"' := by
  rw [Json.unit?.eq_def] at h
  split at h
  · simp only [Option.bind_eq_bind, Option.bind_eq_some_iff] at h
    obtain ⟨_, ha, _, hb, _, hc, _, hd, heq⟩ := h
    cases heq
    refine ⟨[_, _, _, _], rfl, rfl, ?_⟩
    simp only [List.forall_mem_cons]
    exact ⟨ne_of_hexValue? ha, ne_of_hexValue? hb, ne_of_hexValue? hc, ne_of_hexValue? hd, nofun⟩
  · cases h

theorem lowUnit?_some {n : Nat} (h : Json.lowUnit? cs = some (n, rest)) :
    ∃ e, cs = e ++ rest ∧ e.length = 6 ∧ ∀ y ∈ e, isBreak y = false ∧ y ≠ '"' := by
  rw [Json.lowUnit?.eq_def] at h
  split at h
  · simp only [Option.bind_eq_bind, Option.bind_eq_some_iff] at h
    obtain ⟨⟨m, rest'⟩, hunit, h⟩ := h
    split at h
    · cases h
      obtain ⟨e, rfl, hlength, he⟩ := unit?_some hunit
      exact ⟨'\\' :: 'u' :: e, rfl, by rw [List.length_cons, List.length_cons, hlength],
        List.forall_mem_cons.2 ⟨by decide, List.forall_mem_cons.2 ⟨by decide, he⟩⟩⟩
    · cases h
  · cases h

/-- The characters of an escape by number. -/
theorem numbered?_some {mark ch : Char} {width : Nat} (h : numbered? mark cs = some (ch, width)) :
    ∃ e rest, cs = e ++ rest ∧ e.length + 1 = width ∧ ∀ y ∈ e, isBreak y = false ∧ y ≠ '"' := by
  simp only [numbered?, Option.bind_eq_bind, Option.bind_eq_some_iff] at h
  obtain ⟨count, hcount, h⟩ := h
  split at h
  · cases h
  rename_i hlong
  simp only [Option.bind_eq_some_iff] at h
  obtain ⟨n, hn, h⟩ := h
  have hdigits := (hexNumber?_some hn).2
  have hlength : (cs.take count).length = count := List.length_take_of_le (Nat.le_of_not_lt hlong)
  split at h
  · rename_i found hjoined
    cases h
    split at hjoined
    · cases hjoined
    rename_i hhalf
    simp only [not_or, not_not] at hhalf
    obtain rfl := hhalf.1
    obtain rfl : 4 = count := Option.some.inj hcount
    simp only [Option.bind_eq_some_iff] at hjoined
    obtain ⟨⟨m, rest⟩, hlow, heq⟩ := hjoined
    obtain ⟨-, rfl⟩ := Prod.mk.inj (Option.some.inj heq)
    obtain ⟨e, hrest, he, hsecond⟩ := lowUnit?_some hlow
    refine ⟨cs.take 4 ++ e, rest, ?_, ?_, List.forall_mem_append.2 ⟨hdigits, hsecond⟩⟩
    · rw [List.append_assoc, ← hrest, List.take_append_drop]
    · rw [List.length_append, hlength, he]
  · cases h
    exact ⟨cs.take count, cs.drop count, (List.take_append_drop _ _).symm, by rw [hlength], hdigits⟩

/-- What is read after a double quote is what is passed. -/
theorem double?_read {fuel : Nat} : ∀ {c : Cursor} {cs : List Char},
    double? fuel c = some (cs, c') → ∃ v, c.Passes v c' ∧ DoubleRead v cs := by
  induction fuel with
  | zero => exact fun h => nomatch h
  | succ fuel ih =>
    intro c cs h
    rw [double?] at h
    split at h
    · cases h
    · rename_i hrest
      cases h
      exact ⟨_, passes_one hrest (by decide), .close⟩
    · rename_i mark rest hrest
      split at h
      · rename_i hbreak
        simp only [Option.bind_eq_bind, Option.bind_eq_some_iff] at h
        obtain ⟨⟨bs, next⟩, hbreaks, ⟨cs', c''⟩, hmore, heq⟩ := h
        cases heq
        obtain ⟨u, hu, hspacing, rfl, -⟩ := quotedBreaks?_passes hbreaks
        obtain ⟨v, hv, hread⟩ := ih hmore
        have hnext : (c.forward 1).rest = mark :: rest := by rw [Cursor.forward, hrest]; rfl
        have hline := (passes_one hrest (by decide)).trans ((passes_newline hnext hbreak).fresh false)
        exact ⟨_, hline.trans (hu.trans hv), .ended (u := u) hspacing hbreak hread⟩
      · rename_i hbreak
        have hmark := eq_false_of_ne_true hbreak
        split at h
        · obtain ⟨⟨cs', c''⟩, hmore, heq⟩ := Option.map_eq_some_iff.1 h
          obtain ⟨rfl, rfl⟩ := Prod.mk.inj heq
          obtain ⟨v, hv, hread⟩ := ih hmore
          have hpass : c.Passes ['\\', mark] (c.forward 2) :=
            passes_forward hrest (List.forall_mem_cons.2 ⟨by decide, by simpa using hmark⟩)
          exact ⟨_, hpass.trans hv, .escape (List.forall_mem_nil _) hread⟩
        · simp only [Option.bind_eq_bind, Option.bind_eq_some_iff] at h
          obtain ⟨⟨ch, width⟩, hnumber, ⟨cs', c''⟩, hmore, heq⟩ := h
          cases heq
          obtain ⟨v, hv, hread⟩ := ih hmore
          obtain ⟨e, rest, rfl, rfl, he⟩ := numbered?_some hnumber
          have hpass := passes_forward (c := c) (w := '\\' :: mark :: e) hrest (List.forall_mem_cons.2
            ⟨by decide, List.forall_mem_cons.2 ⟨hmark, fun y hy => (he y hy).1⟩⟩)
          exact ⟨_, hpass.trans hv, .escape (fun y hy => (he y hy).2) hread⟩
    · rename_i ch rest hne hne' hrest
      split at h
      · simp only [Option.bind_eq_bind, Option.bind_eq_some_iff] at h
        obtain ⟨⟨gap, next⟩, hgap, ⟨cs', c''⟩, hmore, heq⟩ := h
        cases heq
        obtain ⟨u, hu, hspacing, rfl, -⟩ := quotedGap?_passes hgap
        obtain ⟨v, hv, hread⟩ := ih hmore
        exact ⟨_, hu.trans hv, .gap hspacing hread⟩
      · rename_i hgap
        obtain ⟨⟨cs', c''⟩, hmore, heq⟩ := Option.map_eq_some_iff.1 h
        obtain ⟨rfl, rfl⟩ := Prod.mk.inj heq
        obtain ⟨v, hv, hread⟩ := ih hmore
        have hsolid := eq_false_of_ne_true hgap
        refine ⟨_, (passes_one hrest (isBreak_of_isGap hsolid)).trans hv, .char hsolid ?_ hread⟩
        rintro rfl
        exact hne rfl

end DeclGraph.Yaml
