/-
  Texts in quotes.

  Lines that are too long are broken inside of quotes, and the line breaks of a text are written as
  more of them.  What may be written for a text does not depend on where its lines are broken.

  * `SingleForm` and `DoubleForm`: what may stand between quotes for a text;
  * `single?_form` and `double?_form`: what is of these forms is read as the text;
  * `putSingle_form` and `putDouble_form`: what is written is of these forms.
-/
import DeclGraph.Proofs.Json.RoundTrip
import DeclGraph.Proofs.Yaml.Cursor
import Mathlib.Algebra.Group.Nat.Defs
import Mathlib.Data.List.Chain

namespace DeclGraph.Yaml

open Cursor

/-! ## Single quotes -/

/-- Whether no blanks go on at the start of a text. -/
def EndsBlanks (w : List Char) : Prop := ∀ x ∈ w.head?, Solid x

/-- What may stand between single quotes for a text.  A single space may be a line break. -/
inductive SingleForm : List Char → List Char → Prop where
  | nil : SingleForm [] []
  | char {x : Char} {cs w : List Char} : Solid x → x ≠ '\'' → SingleForm cs w →
    SingleForm (x :: cs) (x :: w)
  | quote {cs w : List Char} : SingleForm cs w → SingleForm ('\'' :: cs) ('\'' :: '\'' :: w)
  | spaces {cs w : List Char} (n : Nat) : EndsBlanks w → SingleForm cs w →
    SingleForm (List.replicate (n + 1) ' ' ++ cs) (List.replicate (n + 1) ' ' ++ w)
  | breaks {cs w : List Char} (n : Nat) : EndsBlanks w → SingleForm cs w →
    SingleForm (foldBreaks (List.replicate (n + 1) '\n') ++ cs)
      (List.replicate (n + 1) '\n' ++ (indentation ++ w))

theorem solid_quote : Solid '\'' := ⟨by decide, by decide⟩

variable {c : Cursor} {x : Char} {rest : List Char}

theorem EndsBlanks.append {w : List Char} (h : EndsBlanks w) (hx : Solid x) (rest : List Char) :
    ∃ y ys, w ++ x :: rest = y :: ys ∧ Solid y := by
  cases w with
  | nil => exact ⟨x, rest, rfl, hx⟩
  | cons y ys => exact ⟨y, ys ++ x :: rest, rfl, h y rfl⟩

theorem single?_char (hx : Solid x) (hquote : x ≠ '\'') (h : c.rest = x :: rest) (fuel : Nat) :
    single? (fuel + 1) c = (single? fuel (c.forward 1)).map fun p => (x :: p.1, p.2) := by
  simp [single?, h, hquote, hx.isGap]

theorem single?_quotes (h : c.rest = '\'' :: '\'' :: rest) (fuel : Nat) :
    single? (fuel + 1) c = (single? fuel (c.forward 2)).map fun p => ('\'' :: p.1, p.2) := by
  simp [single?, h]

theorem single?_end (h : c.rest = '\'' :: rest) (hrest : rest.head? ≠ some '\'') (fuel : Nat) :
    single? (fuel + 1) c = some ([], c.forward 1) := by
  cases rest with
  | nil => simp [single?, h]
  | cons y ys =>
    have hy : y ≠ '\'' := fun hy => hrest (congrArg some hy)
    simp [single?, h, hy]

theorem single?_gap {gap cs : List Char} {c' c'' : Cursor} (hx : isGap x = true)
    (h : c.rest = x :: rest) (hgap : quotedGap? c = some (gap, c')) {fuel : Nat}
    (hmore : single? fuel c' = some (cs, c'')) :
    single? (fuel + 1) c = some (gap ++ cs, c'') := by
  have hquote : x ≠ '\'' := by
    rintro rfl
    exact absurd hx (by decide)
  simp [single?, h, hquote, hx, hgap, hmore]

/-- **What may stand between single quotes for a text is read as the text.** -/
theorem single?_form {cs w : List Char} (h : SingleForm cs w) :
    ∀ {c : Cursor} {fuel : Nat}, c.Before (w ++ '\'' :: rest) → rest.head? ≠ some '\'' →
      w.length < fuel →
      ∃ c', single? fuel c = some (cs, c') ∧ c'.Before rest ∧ c'.fresh = false := by
  induction h with
  | nil =>
    intro c fuel hc hrest hfuel
    obtain ⟨fuel, rfl⟩ : ∃ k, fuel = k + 1 := ⟨fuel - 1, by omega⟩
    exact ⟨c.forward 1, single?_end hc.rest_eq hrest fuel, hc.forward 1, rfl⟩
  | @char x cs w hx hquote _ ih =>
    intro c fuel hc hrest hfuel
    obtain ⟨fuel, rfl⟩ : ∃ k, fuel = k + 1 := ⟨fuel - 1, by omega⟩
    obtain ⟨c', hread, hc'⟩ := ih (hc.forward 1) hrest
      (show w.length < fuel by simp at hfuel; omega)
    exact ⟨c', by rw [single?_char hx hquote hc.rest_eq, hread]; rfl, hc'⟩
  | @quote cs w _ ih =>
    intro c fuel hc hrest hfuel
    obtain ⟨fuel, rfl⟩ : ∃ k, fuel = k + 1 := ⟨fuel - 1, by omega⟩
    obtain ⟨c', hread, hc'⟩ := ih (hc.forward 2) hrest
      (show w.length < fuel by simp at hfuel; omega)
    exact ⟨c', by rw [single?_quotes hc.rest_eq, hread]; rfl, hc'⟩
  | @spaces cs w n hw _ ih =>
    intro c fuel hc hrest hfuel
    obtain ⟨fuel, rfl⟩ : ∃ k, fuel = k + 1 := ⟨fuel - 1, by omega⟩
    obtain ⟨y, ys, hy, hsolid⟩ := hw.append solid_quote rest
    rw [List.append_assoc] at hc
    have hnext := hc.forward_append
    rw [List.length_replicate] at hnext
    obtain ⟨c', hread, hc'⟩ := ih hnext hrest (show w.length < fuel by simp at hfuel; omega)
    rw [hy] at hc
    exact ⟨c', single?_gap (by decide) hc.rest_eq (quotedGap?_spaces hsolid hc) hread, hc'⟩
  | @breaks cs w n hw _ ih =>
    intro c fuel hc hrest hfuel
    obtain ⟨fuel, rfl⟩ : ∃ k, fuel = k + 1 := ⟨fuel - 1, by omega⟩
    obtain ⟨y, ys, hy, hsolid⟩ := hw.append solid_quote rest
    rw [List.append_assoc, List.append_assoc, hy] at hc
    obtain ⟨next, hgap, hnext, -⟩ := quotedGap?_breaks hsolid n hc
    rw [← hy] at hnext
    obtain ⟨c', hread, hc'⟩ := ih hnext hrest (show w.length < fuel by simp at hfuel; omega)
    exact ⟨c', single?_gap (by decide) hc.rest_eq hgap hread, hc'⟩

theorem SingleForm.legible {cs w : List Char} (h : SingleForm cs w) : Legible w := by
  induction h with
  | nil => exact legible_nil
  | char hx _ _ ih => exact ih.cons (.inr hx.1)
  | quote _ ih => exact (ih.cons (.inr solid_quote.1)).cons (.inr solid_quote.1)
  | spaces n _ _ ih => exact (legible_replicate (.inr (by decide)) _).append ih
  | breaks n _ _ ih =>
    exact (legible_replicate (.inl rfl) _).append (legible_indentation.append ih)

/-- A text that may stand in single quotes. -/
structure SingleText (cs : List Char) : Prop where
  chars : Legible cs
  spaces : cs.IsChain fun a b => ¬ (a = ' ' ∧ b = '\n')
  breaks : cs.IsChain fun a b => ¬ (a = '\n' ∧ b = ' ')

theorem SingleText.right {u cs : List Char} (h : SingleText (u ++ cs)) : SingleText cs where
  chars x hx := h.chars x (List.mem_append_right u hx)
  spaces := h.spaces.right_of_append
  breaks := h.breaks.right_of_append

theorem SingleText.tail {x : Char} {cs : List Char} (h : SingleText (x :: cs)) : SingleText cs :=
  SingleText.right (u := [x]) h

theorem exists_run (x : Char) (cs : List Char) :
    ∃ n ys, cs = List.replicate n x ++ ys ∧ ys.head? ≠ some x := by
  induction cs with
  | nil => exact ⟨0, [], rfl, nofun⟩
  | cons y cs ih =>
    by_cases hy : y = x
    · obtain ⟨n, ys, rfl, hys⟩ := ih
      exact ⟨n + 1, ys, by rw [hy]; rfl, hys⟩
    · exact ⟨0, y :: cs, rfl, by simpa using hy⟩

theorem SingleForm.endsBlanks {cs w : List Char} (h : SingleForm cs w)
    (hspace : cs.head? ≠ some ' ') (hbreak : cs.head? ≠ some '\n') : EndsBlanks w := by
  cases h with
  | nil => exact nofun
  | char hx _ _ =>
    rintro y ⟨⟩
    exact hx
  | quote _ =>
    rintro y ⟨⟩
    exact solid_quote
  | spaces n _ _ => exact absurd rfl hspace
  | breaks n _ _ =>
    cases n with
    | zero => exact absurd rfl hspace
    | succ n => exact absurd rfl hbreak

theorem back_put (s : Sheet) (cs : List Char) : (s.put cs).back = cs.reverse ++ s.back := rfl

theorem put_put (s : Sheet) (u v : List Char) : (s.put u).put v = s.put (u ++ v) := by
  simp [Sheet.put, Nat.add_assoc]

variable {cs : List Char}

theorem putSingle_spaces (n : Nat) : ∀ {before : Option Char} (s : Sheet),
    before = some ' ' ∨ 0 < n → putSingle before (List.replicate (n + 1) ' ' ++ cs) s =
      putSingle (some ' ') cs (s.put (List.replicate (n + 1) ' ')) := by
  induction n with
  | zero =>
    intro before s h
    obtain rfl := h.resolve_right (Nat.lt_irrefl 0)
    simp [putSingle]
  | succ n ih =>
    intro before s _
    have hnext := ih (s.put [' ']) (.inl rfl)
    rw [put_put] at hnext
    rw [List.replicate_succ, List.cons_append, putSingle, hnext]
    simp [List.replicate_succ]

/-- The line breaks after a first one are written as they are. -/
theorem putSingle_more_breaks (n : Nat) (hcs : ∀ x ∈ cs.head?, isBreak x = false) :
    ∀ s : Sheet, ∃ s' : Sheet,
      putSingle (some '\n') (List.replicate (n + 1) '\n' ++ cs) s = putSingle (some '\n') cs s' ∧
      s'.back = (List.replicate (n + 1) '\n' ++ indentation).reverse ++ s.back := by
  have hbreak : isBreak '\n' = true := by decide
  induction n with
  | zero =>
    intro s
    have hnext : (cs.head?.map isBreak).getD false = false := by
      cases h : cs.head? with
      | none => rfl
      | some x => exact hcs x h
    refine ⟨{ back := List.replicate continuedIndent ' ' ++ '\n' :: s.back,
              column := continuedIndent }, ?_, rfl⟩
    simp [putSingle, hbreak, hnext]
  | succ n ih =>
    intro s
    obtain ⟨s', hput, hback⟩ := ih { back := '\n' :: s.back, column := 0 }
    refine ⟨s', ?_, ?_⟩
    · rw [← hput, List.replicate_succ, List.cons_append, putSingle]
      simp [hbreak, List.replicate_succ]
    · rw [hback, List.replicate_succ (n := n + 1), List.cons_append, List.reverse_cons,
        List.append_assoc]
      rfl

/-- The first of several line breaks is written twice. -/
theorem putSingle_breaks (n : Nat) (hcs : ∀ x ∈ cs.head?, isBreak x = false)
    {before : Option Char} (hbefore : ∀ x ∈ before, isBreak x = false) (s : Sheet) : ∃ s' : Sheet,
      putSingle before (List.replicate (n + 1) '\n' ++ cs) s = putSingle (some '\n') cs s' ∧
      s'.back = (List.replicate (n + 2) '\n' ++ indentation).reverse ++ s.back := by
  have hbreak : isBreak '\n' = true := by decide
  obtain ⟨s', hput, hback⟩ := putSingle_more_breaks n hcs { s with back := '\n' :: s.back }
  refine ⟨s', ?_, ?_⟩
  · have hfirst : (before.map isBreak).getD false = false := by
      cases before with
      | none => rfl
      | some x => exact hbefore x rfl
    have hsecond : ((some '\n').map isBreak).getD false = true := rfl
    rw [← hput, List.replicate_succ, List.cons_append, putSingle, putSingle]
    simp only [hfirst, hsecond]
    rfl
  · rw [hback, List.replicate_succ (n := n + 1), List.cons_append, List.reverse_cons,
      List.append_assoc]
    rfl

theorem SingleText.isBreak_head (h : SingleText cs) (hcs : cs.head? ≠ some '\n') :
    ∀ x ∈ cs.head?, isBreak x = false := by
  intro x hx
  rcases h.chars x (List.mem_of_head? hx) with rfl | hprintable
  · exact absurd hx hcs
  · exact hprintable.isBreak

theorem head_ne_of_isChain {x y : Char} {n : Nat}
    (h : (List.replicate (n + 1) x ++ cs).IsChain fun a b => ¬ (a = x ∧ b = y)) :
    cs.head? ≠ some y := by
  intro hy
  have hlast : (List.replicate (n + 1) x).getLast? = some x := by simp [List.getLast?_replicate]
  exact (List.isChain_append.1 h).2.2 x hlast y hy ⟨rfl, rfl⟩

/-- A single space is written, or stands for a new line. -/
theorem putSingle_space (before : Option Char) (cs : List Char) (s : Sheet) :
    putSingle before (' ' :: cs) s = putSingle (some ' ') cs (s.put [' ']) ∨
      putSingle before (' ' :: cs) s = putSingle (some ' ') cs s.continued := by
  rw [putSingle, if_neg (by decide), if_pos rfl]
  dsimp only
  split
  · exact .inr rfl
  · exact .inl rfl

/-- Spaces are written, or a single one stands for a new line. -/
theorem putSingle_run (n : Nat) (before : Option Char) (cs : List Char) (s : Sheet) :
    ∃ (s' : Sheet) (v : List Char),
    putSingle before (List.replicate (n + 1) ' ' ++ cs) s = putSingle (some ' ') cs s' ∧
      s'.back = v.reverse ++ s.back ∧ ∀ w, EndsBlanks w → SingleForm cs w →
        SingleForm (List.replicate (n + 1) ' ' ++ cs) (v ++ w) := by
  have hspaces : ∀ w, EndsBlanks w → SingleForm cs w →
      SingleForm (List.replicate (n + 1) ' ' ++ cs) (List.replicate (n + 1) ' ' ++ w) :=
    fun _ hw h => .spaces n hw h
  cases n with
  | zero =>
    rcases putSingle_space before cs s with hput | hput
    · exact ⟨s.put [' '], [' '], hput, rfl, hspaces⟩
    · exact ⟨s.continued, '\n' :: indentation, hput, rfl, fun _ hw h => .breaks 0 hw h⟩
  | succ n =>
    exact ⟨s.put (List.replicate (n + 2) ' '), _, putSingle_spaces (n + 1) s (.inr n.succ_pos), rfl,
      hspaces⟩

/-- **What is written between single quotes is of their form.** -/
theorem putSingle_form {n : Nat} : ∀ {cs : List Char}, cs.length ≤ n → SingleText cs →
    ∀ before : Option Char, (∀ x ∈ before, isBreak x = true → cs.head? ≠ some '\n') →
    ∀ s : Sheet, ∃ w, (putSingle before cs s).back = w.reverse ++ s.back ∧ SingleForm cs w := by
  induction n with
  | zero =>
    intro cs hlength _ before _ s
    obtain rfl := List.length_eq_zero_iff.1 (Nat.le_zero.1 hlength)
    exact ⟨[], by rw [putSingle]; rfl, .nil⟩
  | succ n ih =>
    intro cs hlength htext before hbefore s
    cases cs with
    | nil => exact ⟨[], by rw [putSingle]; rfl, .nil⟩
    | cons x cs =>
      have hshort : cs.length ≤ n := Nat.le_of_succ_le_succ hlength
      by_cases hspace : x = ' '
      · obtain ⟨k, cs', rfl, hhead⟩ := exists_run ' ' cs
        subst hspace
        have htext' : SingleText (List.replicate (k + 1) ' ' ++ cs') := htext
        have hbreak := head_ne_of_isChain htext'.spaces
        obtain ⟨s', v, hput, hback, hform⟩ := putSingle_run k before cs' s
        obtain ⟨w, hback', h⟩ := ih (by simp at hshort; omega) htext'.right
          (some ' ') (fun _ _ _ => hbreak) s'
        refine ⟨v ++ w, ?_, hform w (h.endsBlanks hhead hbreak) h⟩
        rw [List.replicate_succ, List.cons_append] at hput
        rw [hput, hback', hback, List.reverse_append, List.append_assoc]
      by_cases hbreak : x = '\n'
      · obtain ⟨k, cs', rfl, hhead⟩ := exists_run '\n' cs
        subst hbreak
        have htext' : SingleText (List.replicate (k + 1) '\n' ++ cs') := htext
        have hspace' := head_ne_of_isChain htext'.breaks
        have hbefore' : ∀ y ∈ before, isBreak y = false := fun y hy =>
          eq_false_of_ne_true fun hy' => hbefore y hy hy' rfl
        obtain ⟨s', hput, hback⟩ := putSingle_breaks k (htext'.right.isBreak_head hhead) hbefore' s
        obtain ⟨w, hback', h⟩ := ih (by simp at hshort; omega) htext'.right
          (some '\n') (fun _ _ _ => hhead) s'
        refine ⟨List.replicate (k + 2) '\n' ++ (indentation ++ w), ?_,
          .breaks (k + 1) (h.endsBlanks hspace' hhead) h⟩
        rw [List.replicate_succ, List.cons_append] at hput
        rw [hput, hback', hback]
        simp
      have hprintable : Printable x := (htext.chars x List.mem_cons_self).resolve_left hbreak
      have hafter : ∀ y ∈ some x, isBreak y = true → cs.head? ≠ some '\n' := by
        rintro y ⟨⟩ hy
        rw [hprintable.isBreak] at hy
        cases hy
      by_cases hquote : x = '\''
      · obtain ⟨w, hback, h⟩ := ih hshort htext.tail (some x) hafter (s.put ['\'', '\''])
        subst hquote
        exact ⟨'\'' :: '\'' :: w, by rw [putSingle, if_pos rfl, hback]; simp [Sheet.put], .quote h⟩
      · obtain ⟨w, hback, h⟩ := ih hshort htext.tail (some x) hafter (s.put [x])
        refine ⟨x :: w, ?_, .char ⟨hprintable, hspace⟩ hquote h⟩
        rw [putSingle, if_neg hquote, if_neg hspace, hprintable.isBreak]
        simp only [Bool.false_eq_true, if_false, hback]
        simp [Sheet.put]

theorem isChain_of_hasPair {p q : Char → Bool} : ∀ {cs : List Char}, hasPair p q cs = false →
    cs.IsChain fun a b => ¬ (p a = true ∧ q b = true)
  | [], _ => .nil
  | [a], _ => .singleton a
  | a :: b :: cs, h => by
    rw [hasPair, Bool.or_eq_false_iff, Bool.and_eq_false_iff] at h
    refine .cons_cons ?_ (isChain_of_hasPair h.2)
    rintro ⟨ha, hb⟩
    rcases h.1 with h | h
    · rw [ha] at h; cases h
    · rw [hb] at h; cases h

theorem isSpecial_eq_false_iff {x : Char} : isSpecial x = false ↔ x = '\n' ∨ Printable x := by
  simp [isSpecial, Printable, or_iff_not_imp_left]

theorem SingleText.of_allowsSingle (h : allowsSingle cs = true) : SingleText cs := by
  simp only [allowsSingle, Bool.and_eq_true, Bool.not_eq_true'] at h
  obtain ⟨⟨hspecial, hspaces⟩, hbreaks⟩ := h
  refine ⟨fun x hx => isSpecial_eq_false_iff.1 ?_, ?_, ?_⟩
  · exact eq_false_of_ne_true (List.any_eq_false.1 hspecial x hx)
  · refine (isChain_of_hasPair hspaces).imp fun a b hab h => hab ?_
    rw [h.1, h.2]
    decide
  · refine (isChain_of_hasPair hbreaks).imp fun a b hab h => hab ?_
    rw [h.1, h.2]
    decide

/-! ## Escapes -/

/-- The digits of an escape by number. -/
def upperDigits (width n : Nat) : List Char := (Text.hexDigits width n).map Char.toUpper

theorem length_upperDigits (width n : Nat) : (upperDigits width n).length = width := by
  rw [upperDigits, List.length_map]
  induction width generalizing n with
  | zero => rfl
  | succ width ih => rw [Text.hexDigits, List.length_append, ih, List.length_singleton]

theorem hexNumber?_upperDigits {width n : Nat} (h : n < 16 ^ width) :
    hexNumber? (upperDigits width n) = some n := by
  induction width generalizing n with
  | zero =>
    obtain rfl : n = 0 := by omega
    rfl
  | succ width ih =>
    have hdigit : ∀ d < 16, Json.hexValue? (Nat.digitChar d).toUpper = some d := by decide
    have hlast := hdigit (n % 16) (Nat.mod_lt n (by omega))
    have hfront := ih (n := n / 16) (by rw [Nat.pow_succ] at h; omega)
    rw [hexNumber?, upperDigits] at hfront
    rw [hexNumber?, upperDigits, Text.hexDigits, List.map_append, List.foldl_append, hfront]
    simp only [List.map_cons, List.map_nil, List.foldl_cons, List.foldl_nil, hlast,
      Option.bind_eq_bind, Option.bind_some, Nat.div_add_mod]
    rfl

/-- The number of a character is read, as it is not one half of another character. -/
theorem numbered?_upperDigits {x mark : Char} {width : Nat}
    (hmark : [('x', 2), ('u', 4), ('U', 8)].lookup mark = some width)
    (h : x.toNat < 16 ^ width) (rest : List Char) :
    numbered? mark (upperDigits width x.toNat ++ rest) = some (x, width + 1) := by
  have hvalid := Json.toNat_lt_or x
  have hlength := length_upperDigits width x.toNat
  have hhalf : mark ≠ 'u' ∨ x.toNat < 0xd800 ∨ 0xdbff < x.toNat := by omega
  have htake : (upperDigits width x.toNat ++ rest).take width = upperDigits width x.toNat :=
    List.take_left' hlength
  have hvalid' : x.toNat.isValidChar := x.valid
  have hlong : ¬ (upperDigits width x.toNat ++ rest).length < width := by
    rw [List.length_append, hlength]
    omega
  simp only [numbered?, hmark, Option.bind_eq_bind, Option.bind_some, if_neg hlong, htake,
    hexNumber?_upperDigits h, if_pos hhalf, Option.bind_none, if_pos hvalid', Char.ofNat_toNat]

theorem double?_named {mark : Char} (h : c.rest = '\\' :: mark :: rest)
    (hmark : escapes.lookup mark = some x) (fuel : Nat) :
    double? (fuel + 1) c = (double? fuel (c.forward 2)).map fun p => (x :: p.1, p.2) := by
  have hnone : ∀ b ∈ ['\n', '\r', '\u0085', '\u2028', '\u2029'], escapes.lookup b = none := by decide
  have hbreak : isBreak mark = false := by
    rw [Bool.eq_false_iff, ne_eq, isBreak_iff]
    intro hb
    rw [hnone mark hb] at hmark
    cases hmark
  simp [double?, h, hbreak, hmark]

theorem double?_numbered {mark : Char} {width : Nat} (h : c.rest = '\\' :: mark :: rest)
    (hbreak : isBreak mark = false) (hmark : escapes.lookup mark = none)
    (hnumber : numbered? mark rest = some (x, width)) (fuel : Nat) :
    double? (fuel + 1) c = (double? fuel (c.forward (width + 1))).map fun p => (x :: p.1, p.2) := by
  simp only [double?, h, hbreak, hmark, hnumber, Option.bind_eq_bind, Option.bind_some,
    Bool.false_eq_true, if_false]
  cases double? fuel (c.forward (width + 1)) <;> rfl

/-- The marks of escapes by number, with the count of digits. -/
def numberMarks : List (Char × Nat) := [('x', 2), ('u', 4), ('U', 8)]

/-- A character has an escape of its own, or one by number. -/
theorem escapeOf_cases (x : Char) :
    (∃ mark, escapeOf x = ['\\', mark] ∧ (mark, x) ∈ escapes ∧ mark ≠ '\t') ∨
      ∃ mark width, escapeOf x = '\\' :: mark :: upperDigits width x.toNat ∧
        (mark, width) ∈ numberMarks ∧ x.toNat < 16 ^ width := by
  have hvalid := Json.toNat_lt_or x
  rw [escapeOf]
  dsimp only
  split
  · rename_i mark hmark
    obtain ⟨⟨m, y⟩, hfind, rfl⟩ := Option.map_eq_some_iff.1 hmark
    have hfound := List.find?_some hfind
    simp only [Bool.and_eq_true, beq_iff_eq, decide_eq_true_eq] at hfound
    obtain ⟨⟨⟨rfl, htab⟩, -⟩, -⟩ := hfound
    exact .inl ⟨m, rfl, List.mem_of_find?_eq_some hfind, htab⟩
  · split
    · exact .inr ⟨'x', 2, rfl, by decide, by omega⟩
    · split
      · exact .inr ⟨'u', 4, rfl, by decide, by omega⟩
      · exact .inr ⟨'U', 8, rfl, by decide, by omega⟩

theorem escapeOf_head (x : Char) : ∃ e, escapeOf x = '\\' :: e := by
  rcases escapeOf_cases x with ⟨mark, hx, -⟩ | ⟨mark, width, hx, -⟩ <;> exact ⟨_, hx⟩

/-- An escape is read as its character. -/
theorem double?_escapeOf (h : c.rest = escapeOf x ++ rest) (fuel : Nat) :
    double? (fuel + 1) c =
      (double? fuel (c.forward (escapeOf x).length)).map fun p => (x :: p.1, p.2) := by
  have hlookup : ∀ p ∈ escapes, escapes.lookup p.1 = some p.2 := by decide
  have hnumbers : ∀ p ∈ numberMarks, isBreak p.1 = false ∧ escapes.lookup p.1 = none ∧
      numberMarks.lookup p.1 = some p.2 := by decide
  rcases escapeOf_cases x with ⟨mark, hx, hmark, -⟩ | ⟨mark, width, hx, hmark, hwidth⟩
  · rw [hx] at h ⊢
    exact double?_named h (hlookup _ hmark) fuel
  · rw [hx] at h ⊢
    obtain ⟨hbreak, hnone, hfound⟩ := hnumbers _ hmark
    rw [double?_numbered h hbreak hnone (numbered?_upperDigits hfound hwidth rest),
      List.length_cons, List.length_cons, length_upperDigits]

/-! ## Double quotes -/

/-- What may stand between double quotes for a text.  A line may end anywhere, and then a space at
    the start of the next one is marked. -/
inductive DoubleForm : List Char → List Char → Prop where
  | nil : DoubleForm [] []
  | char {x : Char} {cs w : List Char} : needsEscape x = false → DoubleForm cs w →
    DoubleForm (x :: cs) (x :: w)
  | escape {cs w : List Char} (x : Char) : DoubleForm cs w →
    DoubleForm (x :: cs) (escapeOf x ++ w)
  | space {cs w : List Char} : DoubleForm cs w → DoubleForm (' ' :: cs) ('\\' :: ' ' :: w)
  | ended {cs w : List Char} : EndsBlanks w → DoubleForm cs w →
    DoubleForm cs ('\\' :: '\n' :: (indentation ++ w))

theorem needsEscape_eq_false_iff :
    needsEscape x = false ↔ x ≠ '"' ∧ x ≠ '\\' ∧ Printable x := by
  simp [needsEscape, Printable, and_assoc]

theorem solid_backslash : Solid '\\' := ⟨by decide, by decide⟩

/-- The spaces at the start of what is written stand for themselves. -/
theorem DoubleForm.split_spaces {cs w : List Char} (h : DoubleForm cs w) :
    ∃ n cs' w', cs = List.replicate n ' ' ++ cs' ∧ w = List.replicate n ' ' ++ w' ∧
      EndsBlanks w' ∧ DoubleForm cs' w' := by
  have hsolid {y : Char} {ys : List Char} (hy : Solid y) : EndsBlanks (y :: ys) := by
    rintro z ⟨⟩
    exact hy
  induction h with
  | nil => exact ⟨0, [], [], rfl, rfl, nofun, .nil⟩
  | @char x cs w hx h ih =>
    by_cases hspace : x = ' '
    · obtain ⟨n, cs', w', rfl, rfl, hw, h'⟩ := ih
      exact ⟨n + 1, cs', w', by rw [hspace]; rfl, by rw [hspace]; rfl, hw, h'⟩
    · have hprintable := (needsEscape_eq_false_iff.1 hx).2.2
      exact ⟨0, _, _, rfl, rfl, hsolid ⟨hprintable, hspace⟩, .char hx h⟩
  | @escape cs w x h _ =>
    obtain ⟨e, he⟩ := escapeOf_head x
    exact ⟨0, _, _, rfl, rfl, by rw [he]; exact hsolid solid_backslash, .escape x h⟩
  | space h _ => exact ⟨0, _, _, rfl, rfl, hsolid solid_backslash, .space h⟩
  | ended hw h _ => exact ⟨0, _, _, rfl, rfl, hsolid solid_backslash, .ended hw h⟩

theorem legible_upperDigits (width n : Nat) : Legible (upperDigits width n) := by
  have hdigits : ∀ d < 16, Printable (Nat.digitChar d).toUpper := by decide
  induction width generalizing n with
  | zero => exact legible_nil
  | succ width ih =>
    rw [upperDigits, Text.hexDigits, List.map_append]
    exact (ih (n / 16)).append (.cons (.inr (hdigits _ (Nat.mod_lt n (by decide)))) legible_nil)

theorem legible_escapeOf (x : Char) : Legible (escapeOf x) := by
  have hnamed : ∀ p ∈ escapes, p.1 ≠ '\t' → Printable p.1 := by decide
  have hnumbers : ∀ p ∈ numberMarks, Printable p.1 := by decide
  rcases escapeOf_cases x with ⟨mark, hx, hmark, htab⟩ | ⟨mark, width, hx, hmark, -⟩
  · rw [hx]
    exact .cons (.inr solid_backslash.1) (.cons (.inr (hnamed _ hmark htab)) legible_nil)
  · rw [hx]
    exact .cons (.inr solid_backslash.1) (.cons (.inr (hnumbers _ hmark)) (legible_upperDigits _ _))

theorem DoubleForm.legible {cs w : List Char} (h : DoubleForm cs w) : Legible w := by
  induction h with
  | nil => exact legible_nil
  | char hx _ ih => exact ih.cons (.inr (needsEscape_eq_false_iff.1 hx).2.2)
  | escape x _ ih => exact (legible_escapeOf x).append ih
  | space _ ih => exact (ih.cons (.inr (by decide))).cons (.inr solid_backslash.1)
  | ended _ _ ih =>
    exact ((legible_indentation.append ih).cons (.inl rfl)).cons (.inr solid_backslash.1)

theorem double?_end (h : c.rest = '"' :: rest) (fuel : Nat) :
    double? (fuel + 1) c = some ([], c.forward 1) := by
  simp [double?, h]

theorem double?_char (hx : Solid x) (hescape : needsEscape x = false) (h : c.rest = x :: rest)
    (fuel : Nat) :
    double? (fuel + 1) c = (double? fuel (c.forward 1)).map fun p => (x :: p.1, p.2) := by
  obtain ⟨hquote, hback, -⟩ := needsEscape_eq_false_iff.1 hescape
  simp [double?, h, hback, hx.isGap]

theorem double?_spaces {gap cs : List Char} {c' c'' : Cursor} (h : c.rest = ' ' :: rest)
    (hgap : quotedGap? c = some (gap, c')) {fuel : Nat}
    (hmore : double? fuel c' = some (cs, c'')) :
    double? (fuel + 1) c = some (gap ++ cs, c'') := by
  have hspace : isGap ' ' = true := by decide
  simp [double?, h, hspace, hgap, hmore]

theorem double?_ended {cs : List Char} {c' c'' : Cursor} (h : c.rest = '\\' :: '\n' :: rest)
    (hbreaks : quotedBreaks? (rest.length + 1) (c.forward 1).resumed = some ([], c')) {fuel : Nat}
    (hmore : double? fuel c' = some (cs, c'')) : double? (fuel + 1) c = some (cs, c'') := by
  have hbreak : isBreak '\n' = true := by decide
  rw [resumed] at hbreaks
  simp [double?, h, hbreak, hbreaks, hmore]

/-- **What may stand between double quotes for a text is read as the text.** -/
theorem double?_form {fuel : Nat} : ∀ {cs w : List Char} {c : Cursor}, DoubleForm cs w →
    c.Before (w ++ '"' :: rest) → w.length < fuel →
    ∃ c', double? fuel c = some (cs, c') ∧ c'.Before rest ∧ c'.fresh = false := by
  induction fuel with
  | zero => exact fun _ _ hfuel => absurd hfuel (Nat.not_lt_zero _)
  | succ fuel ih =>
    intro cs w c h hc hfuel
    have hsolid : Solid '"' := ⟨by decide, by decide⟩
    obtain ⟨n, cs', w', hcs, hw, hends, hform⟩ := h.split_spaces
    cases n with
    | succ n =>
      -- spaces are read in one piece
      obtain ⟨y, ys, hy, hsolid⟩ := hends.append hsolid rest
      subst hcs hw
      rw [List.append_assoc] at hc
      have hnext := hc.forward_append
      rw [List.length_replicate] at hnext
      obtain ⟨c', hread, hc'⟩ := ih hform hnext (by simp at hfuel; omega)
      rw [hy] at hc
      exact ⟨c', double?_spaces hc.rest_eq (quotedGap?_spaces hsolid hc) hread, hc'⟩
    | zero =>
      obtain rfl : cs = cs' := hcs
      obtain rfl : w = w' := hw
      clear h
      cases hform with
      | nil => exact ⟨c.forward 1, double?_end hc.rest_eq fuel, hc.forward 1, rfl⟩
      | @char x cs w hx h =>
        obtain ⟨c', hread, hc'⟩ := ih h (hc.forward 1) (by simp at hfuel; omega)
        exact ⟨c', by rw [double?_char (hends x rfl) hx hc.rest_eq, hread]; rfl, hc'⟩
      | @escape cs w x h =>
        rw [List.append_assoc] at hc
        obtain ⟨e, he⟩ := escapeOf_head x
        obtain ⟨c', hread, hc'⟩ := ih h hc.forward_append (by rw [he] at hfuel; simp at hfuel; omega)
        exact ⟨c', by rw [double?_escapeOf hc.rest_eq, hread]; rfl, hc'⟩
      | @space cs w h =>
        obtain ⟨c', hread, hc'⟩ := ih h (hc.forward 2) (by simp at hfuel; omega)
        exact ⟨c', by rw [double?_named hc.rest_eq (by decide : _ = some ' '), hread]; rfl, hc'⟩
      | @ended _ w hends' h =>
        obtain ⟨y, ys, hy, hsolid⟩ := hends'.append hsolid rest
        have hrest : (c.forward 1).resumed.rest = indentation ++ y :: ys := by
          rw [← hy, resumed, newline, Cursor.forward, hc.rest_eq]
          simp
        obtain ⟨next, hbreaks, hnext, -⟩ := quotedBreaks?_indentation hsolid hrest
          (show 3 ≤ (indentation ++ y :: ys).length + 1 by simp [indentation])
        rw [← hy] at hnext hbreaks
        obtain ⟨c', hread, hc'⟩ := ih h hnext (by simp at hfuel; omega)
        refine ⟨c', double?_ended ?_ hbreaks hread, hc'⟩
        rw [hc.rest_eq]
        simp

/-- A text that does not begin with a space is not written with one at its start. -/
theorem DoubleForm.endsBlanks {cs w : List Char} (h : DoubleForm cs w)
    (hcs : cs.head? ≠ some ' ') : EndsBlanks w := by
  obtain ⟨n, cs', w', rfl, rfl, hends, -⟩ := h.split_spaces
  cases n with
  | zero => exact hends
  | succ n => exact absurd rfl hcs

/-- A sheet after the end of a line in double quotes. -/
def Sheet.ended (s : Sheet) (next : Option Char) : Sheet :=
  if next == some ' ' then ((s.put ['\\']).continued).put ['\\'] else (s.put ['\\']).continued

theorem back_ended_space (s : Sheet) : (s.ended (some ' ')).back =
    ('\\' :: '\n' :: (indentation ++ ['\\'])).reverse ++ s.back := rfl

theorem back_ended {next : Option Char} (h : next ≠ some ' ') (s : Sheet) :
    (s.ended next).back = ('\\' :: '\n' :: indentation).reverse ++ s.back := by
  rw [Sheet.ended, if_neg (by simpa using h)]
  rfl

/-- At the start of a line a space waits to be written. -/
theorem putDouble_space (index length : Nat) (cs : List Char) (s : Sheet) :
    putDouble index length [] (' ' :: cs) (s.ended (some ' ')) =
      putDouble (index + 1) length [' '] cs (s.ended (some ' ')) := by
  have hescape : needsEscape ' ' = false := by decide
  have hcolumn : (s.ended (some ' ')).column = 3 := rfl
  rw [putDouble, hescape, hcolumn]
  simp [bestWidth]

/-- **What is written between double quotes is of their form.** -/
theorem putDouble_form (length : Nat) {n : Nat} : ∀ {cs : List Char}, cs.length ≤ n →
    ∀ (index : Nat) (run : List Char) (s : Sheet), ∃ w,
      (putDouble index length run cs s).back = (run ++ w).reverse ++ s.back ∧ DoubleForm cs w := by
  induction n with
  | zero =>
    intro cs hcs index run s
    obtain rfl := List.length_eq_zero_iff.1 (Nat.le_zero.1 hcs)
    exact ⟨[], by rw [putDouble, List.append_nil]; rfl, .nil⟩
  | succ n ih =>
    intro cs hcs index run s
    cases cs with
    | nil => exact ⟨[], by rw [putDouble, List.append_nil]; rfl, .nil⟩
    | cons x cs =>
      have hlength : cs.length ≤ n := Nat.le_of_succ_le_succ hcs
      have hsolid {ys : List Char} : EndsBlanks ('\\' :: ys) := by
        rintro z ⟨⟩
        exact solid_backslash
      rw [putDouble]
      by_cases hescape : needsEscape x = true
      · rw [if_pos hescape]
        dsimp only
        split
        · change ∃ w, (putDouble (index + 1) length [] cs
            (((s.put run).put (escapeOf x)).ended cs.head?)).back = _ ∧ _
          by_cases hspace : cs.head? = some ' '
          · obtain ⟨cs, rfl⟩ := List.head?_eq_some_iff.1 hspace
            obtain ⟨w, hback, h⟩ := ih (Nat.le_of_succ_le hlength) (index + 2) [' ']
              (((s.put run).put (escapeOf x)).ended (some ' '))
            refine ⟨escapeOf x ++ ('\\' :: '\n' :: (indentation ++ '\\' :: ' ' :: w)), ?_,
              .escape x (.ended hsolid (.space h))⟩
            rw [List.head?_cons, putDouble_space, hback, back_ended_space]
            simp [Sheet.put]
          · obtain ⟨w, hback, h⟩ := ih hlength (index + 1) []
              (((s.put run).put (escapeOf x)).ended cs.head?)
            refine ⟨escapeOf x ++ ('\\' :: '\n' :: (indentation ++ w)), ?_,
              .escape x (.ended (h.endsBlanks hspace) h)⟩
            rw [hback, back_ended hspace]
            simp [Sheet.put]
        · obtain ⟨w, hback, h⟩ := ih hlength (index + 1) [] ((s.put run).put (escapeOf x))
          refine ⟨escapeOf x ++ w, ?_, .escape x h⟩
          rw [hback]
          simp [Sheet.put]
      · rw [if_neg hescape]
        have hescape := eq_false_of_ne_true hescape
        dsimp only
        split
        · change ∃ w, (putDouble (index + 1) length [x] cs ((s.put run).ended (some x))).back = _ ∧ _
          obtain ⟨w, hback, h⟩ := ih hlength (index + 1) [x] ((s.put run).ended (some x))
          rw [hback]
          by_cases hspace : x = ' '
          · subst hspace
            refine ⟨'\\' :: '\n' :: (indentation ++ '\\' :: ' ' :: w), ?_, .ended hsolid (.space h)⟩
            rw [back_ended_space]
            simp [Sheet.put]
          · have hends : EndsBlanks (x :: w) :=
              (DoubleForm.char hescape h).endsBlanks (by simpa using hspace)
            refine ⟨'\\' :: '\n' :: (indentation ++ x :: w), ?_, .ended hends (.char hescape h)⟩
            rw [back_ended (by simpa using hspace)]
            simp [Sheet.put]
        · obtain ⟨w, hback, h⟩ := ih hlength (index + 1) (run ++ [x]) s
          exact ⟨x :: w, by rw [hback, List.append_assoc]; rfl, .char hescape h⟩

end DeclGraph.Yaml
