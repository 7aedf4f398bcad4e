/-
  Lists of texts in brackets.

  Every text of a list is written in the quotes that it needs, and after a comma a line may end.

  * `ItemForm` and `ItemsForm`: what may be written for a text and for several ones;
  * `flowNode_item` and `flowNode_items`: what is of these forms is read as the texts;
  * `flowList_eq`: what is written is of these forms.
-/
import DeclGraph.Proofs.Except
import DeclGraph.Proofs.Yaml.Node
import DeclGraph.Proofs.Yaml.Plain

namespace DeclGraph.Yaml

open Cursor

variable {c : Cursor} {s : String} {ss : List String} {w x rest : List Char} {indent : Int}

/-! ## Blanks -/

/-- What may stand before an item. -/
def IsLead (lead : List Char) : Prop := lead = [] ∨ lead = [' '] ∨ lead = '\n' :: indentation

namespace Cursor

theorem skip_eq_self {y : Char} (h : c.rest = y :: rest) (hspace : y ≠ ' ')
    (hbreak : isBreak y = false) (hhash : y ≠ '#') : c.skip = c := by
  obtain ⟨text, line, column, fresh⟩ := c
  obtain rfl : text = y :: rest := h
  simp [skip, skip.go, hbreak, hhash, hspace]

theorem skip_solid {y : Char} (h : c.rest = y :: rest) (hy : isGap y = false) (hhash : y ≠ '#') :
    c.skip = c :=
  skip_eq_self h (ne_space_of_isGap hy) (isBreak_of_isGap hy) hhash

theorem skip_space (h : c.rest = ' ' :: rest) :
    c.skip = { c with rest := rest, column := c.column + 1 : Cursor }.skip := by
  have hbreak : isBreak ' ' = false := by decide
  rw [skip, skip, h, skip.go]
  simp [hbreak]

theorem skip_break (h : c.rest = '\n' :: rest) : c.skip = Cursor.skip ⟨rest, c.line + 1, 0, true⟩ := by
  have hbreak : isBreak '\n' = true := by decide
  rw [skip, skip, h, skip.go]
  simp [hbreak]

theorem skip_lead {lead : List Char} {y : Char} (hlead : IsLead lead) (hy : isGap y = false)
    (hhash : y ≠ '#') (h : c.Before (lead ++ y :: rest)) : c.skip.Before (y :: rest) := by
  rcases hlead with rfl | rfl | rfl
  · rwa [skip_solid h.rest_eq hy hhash]
  · rw [skip_space h.rest_eq, skip_solid rfl hy hhash]
    exact ⟨rfl, Nat.succ_pos _⟩
  · rw [skip_break h.rest_eq, skip_space rfl, skip_space rfl, skip_solid rfl hy hhash]
    exact ⟨rfl, Nat.succ_pos _⟩

end Cursor

/-! ## Items -/

/-- What may be written for a text among others. -/
inductive ItemForm (s : String) : List Char → Prop where
  | plain {w : List Char} : isText s = true → PlainItem s.toList → Phrase true s.toList w →
    ItemForm s w
  | single {w : List Char} : SingleForm s.toList w → ItemForm s ('\'' :: (w ++ ['\'']))
  | double {w : List Char} : DoubleForm s.toList w → ItemForm s ('"' :: (w ++ ['"']))

theorem startsPlain_congr {flow : Bool} {y : Char} {u v : List Char} (h : atGap u = atGap v) :
    startsPlain flow (y :: u) = startsPlain flow (y :: v) := by
  rw [startsPlain, startsPlain, h]

theorem Phrase.startsPlain {flow : Bool} {cs : List Char} (h : Phrase flow cs w)
    (hcs : ∀ x, startsPlain flow (cs ++ x) = true) (x : List Char) :
    startsPlain flow (w ++ x) = true := by
  have hword {word u v : List Char} (hu : atGap u = true) (hv : atGap v = true) (hne : word ≠ []) :
      Yaml.startsPlain flow (word ++ u) = Yaml.startsPlain flow (word ++ v) := by
    obtain ⟨y, ys, rfl⟩ := List.exists_cons_of_ne_nil hne
    refine startsPlain_congr ?_
    cases ys with
    | nil => exact hu.trans hv.symm
    | cons z ys => rfl
  have hx := hcs x
  cases h with
  | word _ _ => exact hx
  | spaces n hne _ _ _ =>
    rw [List.append_assoc] at hx ⊢
    exact (hword (by rfl) (by rfl) hne).trans hx
  | newline _ hne _ _ _ =>
    rw [List.append_assoc] at hx ⊢
    exact (hword (by rfl) (by rfl) hne).trans hx

/-- The first character of an item. -/
theorem ItemForm.exists_head (h : ItemForm s w) : ∃ y ys, w = y :: ys ∧ isGap y = false ∧
    y ∉ ['#', '&', '!', ',', ']', '\x7d', ':'] := by
  cases h with
  | plain _ hitem hphrase =>
    obtain ⟨y, ys, rfl, hy⟩ := hphrase.exists_head
    have hstarts := hphrase.startsPlain hitem.starts []
    rw [List.append_nil] at hstarts
    have hmarks : y ∉ flowMarks :=
      hitem.text.marks rfl y (List.mem_of_head? (hphrase.head?_eq.symm.trans rfl))
    have hall : ∀ z ∈ ['#', '&', '!', ',', ']', '\x7d', ':'], z ∈ openers ∨ z ∈ flowMarks := by decide
    exact ⟨y, ys, rfl, hy, fun hmem => (hall y hmem).elim (startsPlain_head hstarts).2 hmarks⟩
  | single _ => exact ⟨_, _, rfl, by decide, by decide⟩
  | double _ => exact ⟨_, _, rfl, by decide, by decide⟩

theorem ItemForm.legible (h : ItemForm s w) : Legible w := by
  cases h with
  | plain _ hitem hphrase => exact hphrase.legible hitem.chars
  | single h => exact .cons (.inr (by decide)) (h.legible.append (by decide))
  | double h => exact .cons (.inr (by decide)) (h.legible.append (by decide))

/-- A scalar is read where it begins. -/
theorem flowNode_plain {flow : Bool} (h : startsPlain flow c.rest = true) (fuel depth : Nat) :
    flowNode flow indent false (fuel + 1) depth c =
      .ok (.plain (String.ofList (plain flow indent (c.rest.length + 1) c).1),
        (plain flow indent (c.rest.length + 1) c).2) := by
  cases hrest : c.rest with
  | nil => rw [hrest] at h; cases h
  | cons y ys =>
    rw [hrest] at h
    have hy := (startsPlain_head h).2
    have hne : ∀ z ∈ ['[', '\x7b', '\'', '"'], y ≠ z := by
      rintro z hz rfl
      exact hy ((by decide : ∀ z ∈ ['[', '\x7b', '\'', '"'], z ∈ openers) y hz)
    rw [flowNode.eq_def]
    dsimp only
    rw [hrest]
    split
    · exact absurd (List.cons.inj ‹_›).1 (hne '[' (by simp))
    · exact absurd (List.cons.inj ‹_›).1 (hne '\x7b' (by simp))
    · exact absurd (List.cons.inj ‹_›).1 (hne '\'' (by simp))
    · exact absurd (List.cons.inj ‹_›).1 (hne '"' (by simp))
    · simp only [h, if_true]
      rfl

/-- **What may be written for a text among others is read as the text.** -/
theorem flowNode_item (h : ItemForm s w) {y : Char} (hy : y = ',' ∨ y = ']') (hindent : indent ≤ 0)
    (hc : c.Before (w ++ y :: rest)) (fuel depth : Nat) :
    ∃ n c', flowNode true indent false (fuel + 1) depth c = .ok (n, c') ∧ n.IsScalar s ∧
      c'.Before (y :: rest) := by
  have hgap : isGap y = false := by rcases hy with rfl | rfl <;> decide
  cases h with
  | plain htext hitem hphrase =>
    have hends : EndsWord true (y :: rest) := .inr (.inl ⟨rfl, by rcases hy with rfl | rfl <;> rfl⟩)
    obtain ⟨c', hread, hc', -⟩ := plain_phrase hphrase hindent hends
      (fun c hc => stops_of_isGap hgap hc) hc
      (by rw [hc.rest_eq, List.length_append]; omega : w.length < c.rest.length + 1)
    refine ⟨.plain s, c', ?_, .plain htext, hc'⟩
    rw [flowNode_plain (by rw [hc.rest_eq]; exact hphrase.startsPlain hitem.starts _), hread,
      String.ofList_toList]
  | @single w hform =>
    have hquote : y ≠ '\'' := by rcases hy with rfl | rfl <;> decide
    have hstart : (c.forward 1).Before (w ++ '\'' :: (y :: rest)) := by
      have hforward := hc.forward 1
      simpa using hforward
    obtain ⟨c', hread, hc', -⟩ := single?_form hform hstart (by simpa using hquote)
      (by rw [List.append_assoc, List.length_append]; omega :
        w.length < (w ++ ['\''] ++ y :: rest).length + 1)
    refine ⟨.text s, c', ?_, .text, hc'⟩
    rw [flowNode.eq_def]
    simp only [hc.rest_eq, List.cons_append, hread, textNode, String.ofList_toList]
  | @double w hform =>
    have hstart : (c.forward 1).Before (w ++ '"' :: (y :: rest)) := by
      have hforward := hc.forward 1
      simpa using hforward
    obtain ⟨c', hread, hc', -⟩ := double?_form hform hstart
      (by rw [List.append_assoc, List.length_append]; omega :
        w.length < (w ++ ['"'] ++ y :: rest).length + 1)
    refine ⟨.text s, c', ?_, .text, hc'⟩
    rw [flowNode.eq_def]
    simp only [hc.rest_eq, List.cons_append, hread, textNode, String.ofList_toList]

theorem properties_eq_self {y : Char} (h : c.rest = y :: rest) (hanchor : y ≠ '&') (htag : y ≠ '!') :
    properties c = .ok (false, c) := by
  have hnone : properties? (c.rest.length + 1) false c = some (false, c) := by
    rw [properties?, h]
    split
    · exact absurd (List.cons.inj ‹_›).1 hanchor
    · exact absurd (List.cons.inj ‹_›).1 htag
    · rfl
  rw [properties, hnone]

theorem flowValue_item (h : ItemForm s w) {y : Char} (hy : y = ',' ∨ y = ']') (hindent : indent ≤ 0)
    (hc : c.Before (w ++ y :: rest)) (fuel depth : Nat) :
    ∃ n c', flowValue indent (fuel + 2) depth c = .ok (n, c') ∧ n.IsScalar s ∧
      c'.Before (y :: rest) := by
  obtain ⟨n, c', hread, hn, hc'⟩ := flowNode_item h hy hindent hc fuel depth
  refine ⟨n, c', ?_, hn, hc'⟩
  obtain ⟨z, zs, rfl, -, hz⟩ := h.exists_head
  simp only [List.mem_cons, List.not_mem_nil, or_false, not_or] at hz
  have hrest : c.rest = z :: (zs ++ y :: rest) := hc.rest_eq
  rw [flowValue, properties_eq_self hrest hz.2.1 hz.2.2.1, ok_bind]
  dsimp only
  rw [hrest]
  split
  · exact absurd (List.cons.inj ‹_›).1 hz.2.2.2.1
  · exact absurd (List.cons.inj ‹_›).1 hz.2.2.2.2.1
  · exact absurd (List.cons.inj ‹_›).1 hz.2.2.2.2.2.1
  · exact absurd (List.cons.inj ‹_›).1 hz.2.2.2.2.2.2
  · exact hread

/-! ## Lists -/

/-- What may be written for several texts, one at least. -/
inductive ItemsForm : List String → List Char → Prop where
  | last {s : String} {lead w : List Char} : IsLead lead → ItemForm s w → ItemsForm [s] (lead ++ w)
  | more {s : String} {ss : List String} {lead w ws : List Char} : IsLead lead → ItemForm s w →
    ItemsForm ss ws → ItemsForm (s :: ss) (lead ++ (w ++ ',' :: ws))

theorem ItemsForm.ne_nil {ws : List Char} (h : ItemsForm ss ws) : ss ≠ [] := by
  cases h <;> exact List.cons_ne_nil _ _

theorem IsLead.legible {lead : List Char} (h : IsLead lead) : Legible lead := by
  rcases h with rfl | rfl | rfl <;> decide

theorem ItemsForm.legible {ws : List Char} (h : ItemsForm ss ws) : Legible ws := by
  induction h with
  | last hlead h => exact hlead.legible.append h.legible
  | more hlead h _ ih => exact hlead.legible.append (h.legible.append (ih.cons (.inr (by decide))))

/-- An item is read, and what stands after it. -/
theorem flowItems_item (h : ItemForm s w) {y : Char} (hy : y = ',' ∨ y = ']') (hindent : indent ≤ 0)
    (hc : c.Before (w ++ y :: rest)) (fuel depth : Nat) :
    ∃ (n : Node) (c' : Cursor), n.IsScalar s ∧ c'.Before rest ∧ c'.fresh = false ∧
      flowItems indent (fuel + 3) depth c =
        if y = ',' then (flowItems indent (fuel + 2) depth c'.skip).map fun p => (n :: p.1, p.2)
        else .ok ([n], c') := by
  obtain ⟨n, c', hread, hn, hc'⟩ := flowValue_item h hy hindent hc fuel depth
  refine ⟨n, c'.forward 1, hn, hc'.forward 1, rfl, ?_⟩
  obtain ⟨z, zs, rfl, -, hz⟩ := h.exists_head
  simp only [List.mem_cons, List.not_mem_nil, or_false, not_or] at hz
  have hrest : c.rest = z :: (zs ++ y :: rest) := hc.rest_eq
  have hskip : c'.skip = c' := by
    rcases hy with rfl | rfl <;> exact skip_solid hc'.rest_eq (by decide) (by decide)
  have hitem : flowItem indent c.line n (fuel + 2) depth c' = .ok (n, c') := by
    rw [flowItem.eq_def]
    dsimp only
    rw [hc'.rest_eq]
    rcases hy with rfl | rfl <;> rfl
  rw [flowItems, hrest]
  split
  · exact absurd (List.cons.inj ‹_›).1 hz.2.2.2.2.1
  · exact absurd (List.cons.inj ‹_›).1 hz.2.2.2.1
  · rw [hread, ok_bind]
    dsimp only
    rw [hskip, hitem, ok_bind]
    dsimp only
    rw [hc'.rest_eq]
    rcases hy with rfl | rfl
    · cases flowItems indent (fuel + 2) depth (c'.forward 1).skip <;> rfl
    · rfl

/-- **What may be written for several texts is read as the texts.** -/
theorem flowItems_form {ws : List Char} (h : ItemsForm ss ws) (hindent : indent ≤ 0) (depth : Nat) :
    ∀ {c : Cursor} {fuel : Nat}, c.Before (ws ++ ']' :: rest) → ws.length + 2 ≤ fuel →
      ∃ ns c', flowItems indent fuel depth c.skip = .ok (ns, c') ∧ Node.AreScalars ss ns ∧
        c'.Before rest ∧ c'.fresh = false := by
  induction h with
  | @last s lead w hlead h =>
    intro c fuel hc hfuel
    obtain ⟨y, ys, hw, hy, hy'⟩ := h.exists_head
    obtain ⟨fuel, rfl⟩ : ∃ k, fuel = k + 3 := ⟨fuel - 3, by subst hw; simp at hfuel; omega⟩
    have hstart : c.skip.Before (w ++ ']' :: rest) := by
      rw [hw, List.append_assoc] at hc
      rw [hw]
      exact skip_lead hlead hy (by rintro rfl; simp at hy') hc
    obtain ⟨n, c', hn, hc', hfresh, hread⟩ := flowItems_item h (.inr rfl) hindent hstart fuel depth
    exact ⟨[n], c', hread, .cons hn .nil, hc', hfresh⟩
  | @more s ss lead w ws hlead h _ ih =>
    intro c fuel hc hfuel
    obtain ⟨y, ys, hw, hy, hy'⟩ := h.exists_head
    obtain ⟨fuel, rfl⟩ : ∃ k, fuel = k + 3 := ⟨fuel - 3, by subst hw; simp at hfuel; omega⟩
    have hstart : c.skip.Before (w ++ ',' :: (ws ++ ']' :: rest)) := by
      rw [hw, List.append_assoc, List.append_assoc] at hc
      rw [hw]
      exact skip_lead hlead hy (by rintro rfl; simp at hy') hc
    obtain ⟨n, next, hn, hnext, -, hread⟩ := flowItems_item h (.inl rfl) hindent hstart fuel depth
    obtain ⟨ns, c', hmore, hns, hc'⟩ := ih hnext
      (show ws.length + 2 ≤ fuel + 2 by subst hw; simp at hfuel; omega)
    refine ⟨n :: ns, c', ?_, .cons hn hns, hc'⟩
    rw [hread, if_pos rfl, hmore]
    rfl

/-- **A list in brackets is read as the list of its texts.** -/
theorem flowNode_items {ws : List Char} (h : ItemsForm ss ws) {flow : Bool} (hindent : indent ≤ 0)
    (hc : c.Before ('[' :: (ws ++ ']' :: rest))) {fuel : Nat} (hfuel : ws.length + 3 ≤ fuel)
    (depth : Nat) :
    ∃ ns c', flowNode flow indent false fuel (depth + 1) c = .ok (.list ns, c') ∧
      Node.AreScalars ss ns ∧ c'.Before rest ∧ c'.fresh = false := by
  obtain ⟨fuel, rfl⟩ : ∃ k, fuel = k + 1 := ⟨fuel - 1, by omega⟩
  obtain ⟨ns, c', hread, hns, hc'⟩ := flowItems_form h hindent depth (hc.forward 1)
    (show ws.length + 2 ≤ fuel by omega)
  refine ⟨ns, c', ?_, hns, hc'⟩
  have hstart : c.rest = '[' :: (ws ++ ']' :: rest) := hc.rest_eq
  rw [flowNode.eq_def]
  simp only [hstart, Bool.false_eq_true, if_false, hread, ok_bind]
  rfl

/-! ## Writing -/

theorem styleOf_cases (s : String) :
    (styleOf s = .plain ∧ isText s = true ∧ PlainItem s.toList) ∨
      (styleOf s = .single ∧ SingleText s.toList) ∨ styleOf s = .double := by
  by_cases hplain : (allowsPlain s.toList && isText s) = true
  · have hstyle : styleOf s = .plain := if_pos hplain
    rw [Bool.and_eq_true] at hplain
    exact .inl ⟨hstyle, hplain.2, .of_allowsPlain hplain.1⟩
  by_cases hsingle : allowsSingle s.toList = true
  · exact .inr (.inl ⟨(if_neg hplain).trans (if_pos hsingle), .of_allowsSingle hsingle⟩)
  · exact .inr (.inr ((if_neg hplain).trans (if_neg hsingle)))

theorem putText_item (s : String) (sheet : Sheet) :
    ∃ w, (putText s sheet).back = w.reverse ++ sheet.back ∧ ItemForm s w := by
  unfold putText
  rcases styleOf_cases s with ⟨hstyle, htext, hitem⟩ | ⟨hstyle, htext⟩ | hstyle
  · obtain ⟨w, hback, hw⟩ := putPlain_phrase hitem.spaced hitem.text sheet
    refine ⟨w, ?_, .plain htext hitem hw⟩
    rw [hstyle]
    exact hback
  · obtain ⟨w, hback, hw⟩ := putSingle_form (Nat.le_refl _) htext none nofun (sheet.put ['\''])
    refine ⟨_, ?_, .single hw⟩
    rw [hstyle, back_put, hback]
    simp [back_put]
  · obtain ⟨w, hback, hw⟩ := putDouble_form s.toList.length (Nat.le_refl _) 0 [] (sheet.put ['"'])
    refine ⟨_, ?_, .double hw⟩
    rw [hstyle, back_put, hback]
    simp [back_put]

/-- A line may end before an item. -/
theorem putText_lead (s : String) {sheet next : Sheet} {blank : List Char} (hblank : IsLead blank)
    (hnext : next.back = blank.reverse ++ sheet.back) :
    ∃ lead w, (putText s (if sheet.isFull then sheet.continued else next)).back =
      (lead ++ w).reverse ++ sheet.back ∧ IsLead lead ∧ ItemForm s w := by
  split
  · obtain ⟨w, hback, hw⟩ := putText_item s sheet.continued
    refine ⟨'\n' :: indentation, w, ?_, .inr (.inr rfl), hw⟩
    rw [hback, List.reverse_append, List.append_assoc]
    rfl
  · obtain ⟨w, hback, hw⟩ := putText_item s next
    refine ⟨blank, w, ?_, hblank, hw⟩
    rw [hback, hnext, List.reverse_append, List.append_assoc]

theorem putItems_form : ∀ (ss : List String) {s : String} {lead w : List Char} (sheet : Sheet),
    IsLead lead → ItemForm s w → ∃ ws, (putItems ss sheet).back = ws.reverse ++ sheet.back ∧
      ItemsForm (s :: ss) (lead ++ (w ++ ws))
  | [], s, lead, w, sheet, hlead, hw => ⟨[], rfl, by rw [List.append_nil]; exact .last hlead hw⟩
  | s' :: ss, s, lead, w, sheet, hlead, hw => by
    obtain ⟨lead', w', hback, hlead', hw'⟩ :=
      putText_lead s' (.inr (.inl rfl)) (back_put (sheet.put [',']) [' '])
    obtain ⟨ws, hback', hws⟩ := putItems_form ss _ hlead' hw'
    refine ⟨',' :: (lead' ++ (w' ++ ws)), ?_, .more hlead hw hws⟩
    rw [putItems, hback', hback, back_put]
    simp

/-- **What is written for a list is of the form of its texts, in brackets.** -/
theorem flowList_eq (key s : String) (ss : List String) : ∃ ws,
    flowList key (s :: ss) =
      String.ofList (key.toList ++ ':' :: ' ' :: '[' :: (ws ++ [']'])) ∧ ItemsForm (s :: ss) ws := by
  obtain ⟨lead, w, hback, hlead, hw⟩ :=
    putText_lead s (.inl rfl) (List.nil_append (Sheet.put {} (key.toList ++ [':', ' ', '['])).back).symm
  obtain ⟨ws, hback', hws⟩ := putItems_form ss _ hlead hw
  refine ⟨_, congrArg String.ofList ?_, hws⟩
  rw [back_put, hback', hback, back_put]
  simp

end DeclGraph.Yaml
