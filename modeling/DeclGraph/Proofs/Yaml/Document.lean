/-
  Documents of one mapping, with remarks.

  A line is empty, is a remark, or holds a key and a value.

  * `Value`: what may be written for a value on the line of its key;
  * `Document`: what may be written for some members;
  * `compose_entry`: what a text is read as that begins with a key;
  * `compose_document`: what is of the form of some members is read as the members.
-/
import DeclGraph.Proofs.Yaml.Items
import DeclGraph.Proofs.Yaml.Line

namespace DeclGraph.Yaml

open Cursor

variable {c : Cursor} {v w x rest word : List Char}

/-! ## Names -/

/-- A character of a name. -/
def isNameChar (y : Char) : Bool := y.isAlpha || y == '_'

/-- A name, which needs no quotes. -/
structure IsName (word : List Char) : Prop where
  ne_nil : word ≠ []
  chars : ∀ y ∈ word, isNameChar y = true

theorem isGap_iff {y : Char} : isGap y = true ↔
    y ∈ [' ', '\t', '\x00', '\n', '\r', '\u0085', '\u2028', '\u2029'] := by
  simp [isGap, isBreak, or_assoc]

theorem isGap_of_isNameChar {y : Char} (h : isNameChar y = true) : isGap y = false := by
  refine eq_false_of_ne_true fun hgap => ?_
  have hgaps : ∀ z ∈ [' ', '\t', '\x00', '\n', '\r', '\u0085', '\u2028', '\u2029'],
      isNameChar z = false := by decide
  rw [hgaps y (isGap_iff.1 hgap)] at h
  cases h

theorem notMem_of_isNameChar {y : Char} (h : isNameChar y = true) :
    y ∉ indicators ∧ y ∉ flowMarks ∧ y ≠ '.' := by
  have hmarks : ∀ z ∈ '.' :: indicators ++ flowMarks, isNameChar z = false := by decide
  have hnot {z : Char} (hz : z ∈ '.' :: indicators ++ flowMarks) : y ≠ z := by
    rintro rfl
    rw [hmarks y hz] at h
    cases h
  refine ⟨fun hy => hnot (by simp [hy]) rfl, fun hy => hnot (by simp [hy]) rfl, hnot (by simp)⟩

theorem IsName.isWord (h : IsName word) (flow : Bool) : IsWord flow word where
  solid y hy := isGap_of_isNameChar (h.chars y hy)
  colons u v huv := by
    have hcolon := (notMem_of_isNameChar (h.chars ':' (by rw [huv]; simp))).2.1
    exact absurd (by decide) hcolon
  marks _ y hy := (notMem_of_isNameChar (h.chars y hy)).2.1

theorem IsName.exists_head (h : IsName word) :
    ∃ y ys, word = y :: ys ∧ isGap y = false ∧ y ∉ indicators ∧ y ≠ '.' := by
  obtain ⟨y, ys, rfl⟩ := List.exists_cons_of_ne_nil h.ne_nil
  have hy := h.chars y List.mem_cons_self
  have hnot := notMem_of_isNameChar hy
  exact ⟨y, ys, rfl, isGap_of_isNameChar hy, hnot.1, hnot.2.2⟩

theorem IsName.startsPlain (h : IsName word) (flow : Bool) (x : List Char) :
    startsPlain flow (word ++ x) = true := by
  obtain ⟨y, ys, rfl, hy, hindicator, -⟩ := h.exists_head
  simp [Yaml.startsPlain, hy, hindicator]

/-! ## Values -/

/-- The text of a value on the line of its key. -/
structure Value (j : Json) (text : List Char) : Prop where
  head : ∃ y ys, text = y :: ys ∧ isGap y = false ∧ y ∉ ['#', '&', '!', '|', '>'] ∧
    (y = '-' → atGap ys = false)
  reads : ∀ {x : List Char}, Flush x → ∀ {c : Cursor} {fuel : Nat}, c.Before (text ++ '\n' :: x) →
    text.length + 3 ≤ fuel → ∀ depth : Nat, ∃ n c',
      flowNode false 0 false fuel (depth + 1) c = .ok (n, c') ∧ n.Means j ∧ c'.Before ('\n' :: x) ∧
        c'.fresh = false

variable {j : Json} {text : List Char}

theorem startsPlain_append {flow : Bool} (h : startsPlain flow v = true) (x : List Char) :
    startsPlain flow (v ++ x) = true := by
  cases v with
  | nil => cases h
  | cons y v =>
    rw [startsPlain, Bool.or_eq_true] at h
    rw [List.cons_append, startsPlain, Bool.or_eq_true]
    refine h.imp_right fun hrest => ?_
    rw [Bool.and_eq_true, Bool.not_eq_true'] at hrest ⊢
    exact ⟨atGap_append hrest.1 x, hrest.2⟩

theorem exists_head_of_startsPlain (h : startsPlain false text = true) :
    ∃ y ys, text = y :: ys ∧ isGap y = false ∧ y ∉ ['#', '&', '!', '|', '>'] ∧
      (y = '-' → atGap ys = false) := by
  cases text with
  | nil => cases h
  | cons y ys =>
    obtain ⟨hy, hopener⟩ := startsPlain_head h
    have hopeners : ∀ z ∈ ['#', '&', '!', '|', '>'], z ∈ openers := by decide
    refine ⟨y, ys, rfl, hy, fun hmem => hopener (hopeners y hmem), ?_⟩
    rintro rfl
    have hdash : '-' ∈ indicators := by decide
    simpa [Yaml.startsPlain, hdash] using h

/-- A text without quotes. -/
theorem Value.plain {s : String} (h : Phrase false s.toList s.toList)
    (hstarts : startsPlain false s.toList = true) (htext : isText s = true) :
    Value (.str s) s.toList where
  head := exists_head_of_startsPlain hstarts
  reads := by
    intro x hx c fuel hc hfuel depth
    obtain ⟨fuel, rfl⟩ : ∃ k, fuel = k + 1 := ⟨fuel - 1, by omega⟩
    obtain ⟨c', hread, hc'⟩ := plain_phrase h (Int.le_refl 0) (.inl rfl)
      (fun c hrest => stops_of_flush (n := 0) hrest hx) hc
      (by rw [hc.rest_eq, List.length_append]; omega : s.toList.length < c.rest.length + 1)
    refine ⟨.plain s, c', ?_, (Node.IsScalar.plain htext).means, hc'⟩
    rw [flowNode_plain (by rw [hc.rest_eq]; exact startsPlain_append hstarts _), hread,
      String.ofList_toList]

theorem Value.name {s : String} (hname : IsName s.toList) (htext : isText s = true) :
    Value (.str s) s.toList :=
  .plain (.word hname.ne_nil (hname.isWord false))
    (List.append_nil s.toList ▸ hname.startsPlain false []) htext

theorem Value.items {ss : List String} (h : ItemsForm ss w) :
    Value (.ofTexts ss) ('[' :: (w ++ [']'])) where
  head := ⟨'[', _, rfl, by decide, by decide, fun h => absurd h (by decide)⟩
  reads := by
    intro x hx c fuel hc hfuel depth
    rw [List.cons_append, List.append_assoc] at hc
    obtain ⟨ns, c', hread, hns, hc'⟩ := flowNode_items h (Int.le_refl 0) hc
      (show w.length + 3 ≤ fuel by simp at hfuel; omega) depth
    exact ⟨.list ns, c', hread, hns.means, hc'⟩

/-- **A text that stands for itself on the line of a key.** -/
structure PlainLine (s : String) : Prop where
  starts : startsPlain false s.toList = true
  isText : isText s = true
  allowed : ∀ y ∈ s.toList, isAllowed y = true
  text : PlainText false s.toList
  last : s.toList.getLast? ≠ some ' '

theorem PlainLine.value {s : String} (h : PlainLine s) : Value (.str s) s.toList := by
  obtain ⟨y, ys, hs, hy, -⟩ := exists_head_of_startsPlain h.starts
  have hspaced : Spaced s.toList :=
    .of_ends (Nat.le_refl _) (by rw [hs]; exact List.cons_ne_nil _ _)
      (by rw [hs]; simpa using ne_space_of_isGap hy) h.last
  exact .plain (hspaced.phrase h.text) h.starts h.isText

theorem PlainLine.line {s : String} (h : PlainLine s) : ∀ y ∈ s.toList, isBreak y = false := by
  intro y hy
  by_contra hbreak
  have hspace := h.text.blanks y hy (by simp [isGap, eq_true_of_ne_false hbreak])
  rw [hspace] at hbreak
  exact absurd rfl hbreak

/-! ## Documents -/

/-- A line without content. -/
structure IsRemark (line : List Char) : Prop where
  head : ∀ y ∈ line.head?, y = '#'
  line : ∀ y ∈ line, isBreak y = false

instance (line : List Char) : Decidable (IsRemark line) :=
  decidable_of_iff ((∀ y ∈ line.head?.toList, y = '#') ∧ ∀ y ∈ line, isBreak y = false)
    ⟨fun h => ⟨fun y hy => h.1 y (Option.mem_toList.2 hy), h.2⟩,
      fun h => ⟨fun y hy => h.head y (Option.mem_toList.1 hy), h.line⟩⟩

/-- Empty lines and remarks. -/
inductive Remarks : List Char → Prop where
  | nil : Remarks []
  | line {line w : List Char} : IsRemark line → Remarks w → Remarks (line ++ '\n' :: w)

/-- What may be written for some members. -/
inductive Document : List (String × Json) → List Char → Prop where
  | nil {r : List Char} : Remarks r → Document [] r
  | entry {key : String} {j : Json} {ms : List (String × Json)} {r text w : List Char} :
    Remarks r → IsName key.toList → isText key = true → Value j text → Document ms w →
    Document ((key, j) :: ms) (r ++ (key.toList ++ ':' :: ' ' :: (text ++ '\n' :: w)))

variable {ms : List (String × Json)} {r : List Char}

theorem Remarks.append {r' : List Char} (h : Remarks r) (h' : Remarks r') : Remarks (r ++ r') := by
  induction h with
  | nil => exact h'
  | line hline _ ih =>
    rw [List.append_assoc]
    exact .line hline ih

/-- Lines with their ends. -/
def linesText (lines : List String) : List Char := lines.flatMap fun line => line.toList ++ ['\n']

theorem remarks_linesText {lines : List String} (h : ∀ line ∈ lines, IsRemark line.toList) :
    Remarks (linesText lines) := by
  induction lines with
  | nil => exact .nil
  | cons line lines ih =>
    obtain ⟨hline, hlines⟩ := List.forall_mem_cons.1 h
    have hremarks := Remarks.line hline (ih hlines)
    rwa [linesText, List.flatMap_cons, List.append_assoc]

theorem Document.remark (h : Remarks r) (hw : Document ms w) : Document ms (r ++ w) := by
  cases hw with
  | nil h' => exact .nil (h.append h')
  | entry h' hname htext hvalue hw =>
    rw [← List.append_assoc]
    exact .entry (h.append h') hname htext hvalue hw

theorem Remarks.flush (h : Remarks r) (hx : Flush x) : Flush (r ++ x) := by
  induction h with
  | nil => exact hx
  | @line line w hline _ ih =>
    cases line with
    | nil => exact ⟨by decide, fun _ => ih⟩
    | cons y line =>
      obtain rfl := hline.head y rfl
      exact ⟨by decide, fun hbreak => absurd hbreak (by decide)⟩

theorem IsName.flush (h : IsName word) (x : List Char) : Flush (word ++ x) := by
  obtain ⟨y, ys, rfl, hy, -⟩ := h.exists_head
  refine ⟨ne_space_of_isGap hy, fun hbreak => ?_⟩
  rw [isBreak_of_isGap hy] at hbreak
  cases hbreak

theorem Document.flush (h : Document ms w) : Flush w := by
  cases h with
  | nil h => exact List.append_nil w ▸ h.flush trivial
  | entry h hname _ _ _ => exact h.flush (hname.flush _)

/-! ## Places -/

/-- A place at the start of a line. -/
structure Cursor.AtLine (c : Cursor) (w : List Char) : Prop where
  rest_eq : c.rest = w
  column_eq : c.column = 0
  fresh : c.fresh = true

theorem skip_hash (h : c.rest = '#' :: rest) :
    c.skip = skip.go c.line (c.column + 1) c.fresh true rest := by
  have hbreak : isBreak '#' = false := by decide
  rw [Cursor.skip, h, skip.go]
  simp [hbreak]

theorem go_remark {line : List Char} (hbreak : ∀ y ∈ line, isBreak y = false) (n column : Nat)
    (fresh : Bool) :
    skip.go n column fresh true (line ++ '\n' :: w) = skip.go (n + 1) 0 true false w := by
  induction line generalizing column with
  | nil => simp [skip.go, (by decide : isBreak '\n' = true)]
  | cons y line ih =>
    rw [List.cons_append, skip.go, hbreak y List.mem_cons_self]
    simpa using ih (fun z hz => hbreak z (List.mem_cons_of_mem y hz)) (column + 1)

/-- A line without content is passed over. -/
theorem IsRemark.skip {line : List Char} (h : IsRemark line) (hc : c.rest = line ++ '\n' :: w) :
    ∃ next : Cursor, c.skip = next.skip ∧ next.AtLine w := by
  cases line with
  | nil => exact ⟨_, skip_break hc, rfl, rfl, rfl⟩
  | cons y line =>
    obtain rfl := h.head y rfl
    refine ⟨⟨w, c.line + 1, 0, true⟩, ?_, rfl, rfl, rfl⟩
    rw [skip_hash hc]
    exact go_remark (fun z hz => h.line z (List.mem_cons_of_mem _ hz)) _ _ _

theorem Remarks.skip (h : Remarks r) : ∀ {c : Cursor}, c.AtLine (r ++ x) →
    ∃ c' : Cursor, c.skip = c'.skip ∧ c'.AtLine x := by
  induction h with
  | nil => exact fun hc => ⟨_, rfl, hc⟩
  | line hline _ ih =>
    intro c hc
    rw [List.append_assoc, List.cons_append] at hc
    obtain ⟨next, hskip, hnext⟩ := hline.skip hc.rest_eq
    obtain ⟨c', hskip', hc'⟩ := ih hnext
    exact ⟨c', hskip.trans hskip', hc'⟩

theorem skip_nil (h : c.rest = []) : c.skip = c := by
  obtain ⟨text, line, column, fresh⟩ := c
  obtain rfl : text = [] := h
  rfl

theorem Cursor.Before.atEnd {y : Char} (h : c.Before (y :: rest)) : c.atEnd = false := by
  have hcolumn : (c.column == 0) = false := beq_eq_false_iff_ne.2 h.column_pos.ne'
  simp [Cursor.atEnd, h.rest_eq, hcolumn]

theorem atItem_eq_false {y : Char} (h : c.rest = y :: rest) (hy : y = '-' → atGap rest = false) :
    atItem c = false := by
  rw [atItem, h]
  split
  · rename_i heq
    obtain ⟨rfl, rfl⟩ := List.cons.inj heq
    exact hy rfl
  · rfl

/-- The rest of a document is at its end. -/
theorem Remarks.skip_end (h : Remarks r) (hc : c.AtLine r) :
    c.skip.rest = [] ∧ c.skip.skip = c.skip ∧ c.skip.atEnd = true := by
  rw [← List.append_nil r] at hc
  obtain ⟨next, hskip, hnext⟩ := h.skip hc
  rw [hskip, skip_nil hnext.rest_eq]
  exact ⟨hnext.rest_eq, skip_nil hnext.rest_eq, by simp [Cursor.atEnd, hnext.rest_eq]⟩

/-- The next line that is no remark begins with a name. -/
theorem Remarks.skip_name (h : Remarks r) (hname : IsName word) (hc : c.AtLine (r ++ (word ++ x))) :
    c.skip.AtLine (word ++ x) ∧ c.skip.atEnd = false ∧ atItem c.skip = false := by
  obtain ⟨next, hskip, hnext⟩ := h.skip hc
  obtain ⟨y, ys, rfl, hy, hindicator, hdot⟩ := hname.exists_head
  have hne : ∀ z ∈ ['#', '-'], y ≠ z := by
    rintro z hz rfl
    exact hindicator ((by decide : ∀ z ∈ ['#', '-'], z ∈ indicators) y hz)
  have hhash := hne '#' (by simp)
  have hdash := hne '-' (by simp)
  rw [hskip, skip_solid hnext.rest_eq hy hhash]
  exact ⟨hnext, atEnd_eq_false hnext.rest_eq hdash hdot,
    atItem_eq_false hnext.rest_eq fun hy => absurd hy hdash⟩

/-! ## Keys and values -/

/-- A key is read at the start of a line, up to its colon. -/
theorem flowNode_key {key : String} (hname : IsName key.toList)
    (hc : c.AtLine (key.toList ++ ':' :: ' ' :: rest)) (indent : Int) (fuel depth : Nat) :
    ∃ after colon, flowNode false indent false (fuel + 1) depth c = .ok (.plain key, after) ∧
      afterColon? c.line after = some colon ∧ colon.Before (' ' :: rest) ∧ colon.fresh = false := by
  have hends : EndsWord false (':' :: ' ' :: rest) := .inr (.inr ⟨rfl, rfl⟩)
  have hafter : (c.forward key.toList.length).rest = ':' :: ' ' :: rest := by
    rw [Cursor.forward, hc.rest_eq, List.drop_left]
  have hplain := plain_last ((hname.isWord false).plainRun_append hends) hc.rest_eq
    (stops_of_isGap (by decide) hafter : Stops false indent _)
  refine ⟨c.forward key.toList.length, ((c.forward key.toList.length).forward 0).forward 1, ?_, ?_,
    ?_, rfl⟩
  · rw [flowNode_plain (by rw [hc.rest_eq]; exact hname.startsPlain false _), hplain,
      String.ofList_toList]
  · have hspaces : (c.forward key.toList.length).rest.takeWhile (· == ' ') = [] := by
      rw [hafter]
      rfl
    have hstart : ((c.forward key.toList.length).forward 0).rest = ':' :: ' ' :: rest := hafter
    rw [afterColon?, hspaces]
    simp only [List.length_nil]
    rw [hstart]
    simp [Cursor.forward, atGap, isGap]
  · refine ⟨?_, Nat.succ_pos _⟩
    rw [Cursor.forward, Cursor.forward, hafter]
    rfl

/-- What begins like a scalar is a scalar, or the first key of a mapping. -/
theorem node_eq_flow {indent : Int} {y : Char} (hrest : c.rest = y :: rest)
    (hy : y ∉ ['&', '!', '|', '>']) (hend : c.atEnd = false) (hitem : atItem c = false)
    (hplace : ¬ (c.fresh = true ∧ (c.column : Int) ≤ indent)) (blocks : Bool) (fuel depth : Nat) :
    node indent blocks (fuel + 2) depth c = (do
      let (x, after) ← flowNode false indent false fuel depth c
      match afterColon? c.line after with
      | none => return (x, after)
      | some value =>
        if blocks then
          match depth with
          | 0 => throw .tooDeep
          | depth + 1 => do
            let (ms, c) ← blockMembers c.column x fuel depth value
            return (.mapping ms, c)
        else throw .malformed) := by
  simp only [List.mem_cons, List.not_mem_nil, or_false, not_or] at hy
  rw [node, hend, properties_eq_self hrest hy.1 hy.2.1]
  simp only [hplace, Bool.false_eq_true, or_self, if_false, ok_bind, if_true, beq_self_eq_true,
    Bool.and_true]
  rw [content.eq_def]
  dsimp only
  rw [hend, hitem]
  simp only [hplace, Bool.false_eq_true, or_self, if_false]
  rw [hrest]
  split
  · exact absurd (List.cons.inj ‹_›).1 hy.2.2.1
  · exact absurd (List.cons.inj ‹_›).1 hy.2.2.2
  · rfl

/-- No key ends before the end of a line. -/
theorem afterColon?_break (h : c.rest = '\n' :: rest) (n : Nat) : afterColon? n c = none := by
  have hspaces : c.rest.takeWhile (· == ' ') = [] := by rw [h]; rfl
  have hnext : (c.forward 0).rest = '\n' :: rest := h
  rw [afterColon?, hspaces, List.length_nil, hnext]
  rfl

/-- A value is read after its colon, and the next line comes. -/
theorem blockValue_value (h : Value j text) (hx : Flush x) (hc : c.Before (' ' :: (text ++ '\n' :: x)))
    (hfresh : c.fresh = false) {fuel : Nat} (hfuel : text.length + 6 ≤ fuel) (depth : Nat) :
    ∃ (n : Node) (after next : Cursor), blockValue 0 fuel (depth + 1) c.skip = .ok (n, after) ∧
      n.Means j ∧ after.skip = next.skip ∧ next.AtLine x := by
  obtain ⟨fuel, rfl⟩ : ∃ k, fuel = k + 3 := ⟨fuel - 3, by omega⟩
  obtain ⟨y, ys, rfl, hy, hmarks, hdash⟩ := h.head
  have hhash : y ≠ '#' := fun hy => hmarks (by simp [hy])
  obtain ⟨start, hstart⟩ : ∃ start : Cursor, start = c.skip := ⟨_, rfl⟩
  have hskip : c.skip = { c with rest := y :: ys ++ '\n' :: x, column := c.column + 1 : Cursor } := by
    rw [skip_space hc.rest_eq]
    exact skip_solid rfl hy hhash
  have hbefore : start.Before (y :: ys ++ '\n' :: x) := by
    rw [hstart, hskip]
    exact ⟨rfl, Nat.succ_pos _⟩
  have hfresh' : start.fresh = false := by rw [hstart, hskip]; exact hfresh
  obtain ⟨n, after, hread, hn, hafter, hafterFresh⟩ := h.reads hx hbefore
    (show (y :: ys).length + 3 ≤ fuel by omega) depth
  have hrest : start.rest = y :: (ys ++ '\n' :: x) := hbefore.rest_eq
  have hnode := node_eq_flow hrest (fun hmem => hmarks (List.mem_cons_of_mem '#' hmem))
    hbefore.atEnd (atItem_eq_false hrest fun hy => atGap_append (hdash hy) _)
    (by simp [hfresh'] : ¬ (start.fresh = true ∧ (start.column : Int) ≤ 0)) false fuel (depth + 1)
  rw [hread, ok_bind] at hnode
  dsimp only at hnode
  rw [afterColon?_break hafter.rest_eq] at hnode
  refine ⟨n, after, _, ?_, hn, skip_break hafter.rest_eq, rfl, rfl, rfl⟩
  rw [← hstart, blockValue, hfresh', if_neg (by simp)]
  exact hnode

/-- **The members of a document are read, from the value of the first one on.** -/
theorem blockMembers_document (h : Document ms w) (depth : Nat) : ∀ {key : String} {j : Json}
    {text : List Char} {c : Cursor} {fuel : Nat}, isText key = true → Value j text →
      c.Before (' ' :: (text ++ '\n' :: w)) → c.fresh = false → text.length + w.length + 7 ≤ fuel →
      ∃ ns c', blockMembers 0 (.plain key) fuel (depth + 1) c = .ok (ns, c') ∧
        Node.AreMembers ((key, j) :: ms) ns ∧ c'.skip.rest = [] := by
  induction h with
  | @nil r hremarks =>
    intro key j text c fuel htext hvalue hc hfresh hfuel
    obtain ⟨fuel, rfl⟩ : ∃ k, fuel = k + 1 := ⟨fuel - 1, by omega⟩
    have hflush := Document.flush (.nil hremarks)
    obtain ⟨n, after, next, hread, hn, hskip, hnext⟩ :=
      blockValue_value hvalue hflush hc hfresh (show text.length + 6 ≤ fuel by omega) depth
    obtain ⟨hend, hself, hatEnd⟩ := hremarks.skip_end hnext
    refine ⟨[(.plain key, n)], next.skip, ?_, .cons ⟨rfl, htext, hn⟩ .nil, by rw [hself, hend]⟩
    rw [blockMembers, hread, ok_bind]
    dsimp only
    rw [hskip, if_pos (.inl hatEnd)]
    rfl
  | @entry key' j' ms r text' w hremarks hname htext' hvalue' hw ih =>
    intro key j text c fuel htext hvalue hc hfresh hfuel
    obtain ⟨fuel, rfl⟩ : ∃ k, fuel = k + 2 := ⟨fuel - 2, by omega⟩
    have hflush := Document.flush (.entry hremarks hname htext' hvalue' hw)
    obtain ⟨n, after, next, hread, hn, hskip, hline⟩ :=
      blockValue_value hvalue hflush hc hfresh (show text.length + 6 ≤ fuel + 1 by omega) depth
    obtain ⟨hnext, hatEnd, hitem⟩ := hremarks.skip_name hname hline
    obtain ⟨afterKey, colon, hkey, hcolon, hbefore, hcolonFresh⟩ :=
      flowNode_key hname hnext 0 fuel (depth + 1)
    obtain ⟨ns, c', hmembers, hns, hc'⟩ := ih htext' hvalue' hbefore hcolonFresh
      (show text'.length + w.length + 7 ≤ fuel + 1 by simp at hfuel; omega)
    refine ⟨(.plain key, n) :: ns, c', ?_, .cons ⟨rfl, htext, hn⟩ hns, hc'⟩
    have hstays : ¬ (next.skip.atEnd = true ∨ next.skip.fresh = true ∧ next.skip.column < 0) := by
      simp [hatEnd]
    have hgoes : ¬ ((!next.skip.fresh) = true ∨ next.skip.column ≠ 0 ∨ atItem next.skip = true) := by
      simp [hnext.fresh, hnext.column_eq, hitem]
    rw [blockMembers, hread, ok_bind]
    dsimp only
    rw [hskip, if_neg hstays, if_neg hgoes]
    simp only [Int.natCast_zero, hkey, ok_bind, hcolon, hmembers]
    rfl

/-! ## Texts -/

theorem go_eq_self (h : ∀ y ∈ w, y ≠ '\r' ∧ y ≠ '\u0085') : normalized.go w = w := by
  induction w with
  | nil => rfl
  | cons y w ih =>
    obtain ⟨hy, hw⟩ := List.forall_mem_cons.1 h
    rw [normalized.go, ih hw]
    · rintro rest rfl
      exact absurd rfl hy.1
    · rintro rfl
      exact absurd rfl hy.1
    · rintro rfl
      exact absurd rfl hy.2

theorem normalized_eq_self {s : String} (h : ∀ y ∈ s.toList, y ≠ '\r' ∧ y ≠ '\u0085')
    (hmark : s.toList.head? ≠ some '\ufeff') : normalized s = s.toList := by
  rw [normalized, go_eq_self h]
  split
  · rename_i heq
    rw [heq] at hmark
    exact absurd rfl hmark
  · rfl

theorem isFinished_nil (h : c.rest = []) : isFinished c = true := by
  rw [isFinished, h]
  rfl

theorem IsName.isPrefixOf_marks (h : IsName word) (x : List Char) :
    "---".toList.isPrefixOf (word ++ x) = false := by
  obtain ⟨y, ys, rfl, -, hindicator, -⟩ := h.exists_head
  have hdash : '-' ≠ y := by
    rintro rfl
    exact hindicator (by decide)
  simp [List.isPrefixOf, hdash]

/-- A text that begins with a key is what stands after it. -/
theorem compose_entry {key s : String} (hremarks : Remarks r) (hname : IsName key.toList)
    (hs : normalized s = r ++ (key.toList ++ ':' :: ' ' :: rest))
    (hallowed : (normalized s).all isAllowed = true) (depth : Nat) :
    ∃ (colon : Cursor) (fuel : Nat), colon.Before (' ' :: rest) ∧ colon.fresh = false ∧
      rest.length + 7 ≤ fuel ∧ compose (depth + 1) s =
        match blockMembers 0 (.plain key) fuel depth colon with
        | .ok (ns, c) => if isFinished c.skip then .ok (.mapping ns) else .error .malformed
        | .error flaw => .error flaw := by
  obtain ⟨c, hc⟩ : ∃ c : Cursor, c = { rest := normalized s } := ⟨_, rfl⟩
  have hline : c.AtLine (r ++ (key.toList ++ ':' :: ' ' :: rest)) := by
    rw [hc]
    exact ⟨hs, rfl, rfl⟩
  obtain ⟨hstart, hend, hitem⟩ := hremarks.skip_name hname hline
  obtain ⟨fuel, hfuel⟩ : ∃ fuel, fuel = 4 * (normalized s).length + 1 := ⟨_, rfl⟩
  obtain ⟨after, colon, hkey, hcolon, hbefore, hfresh⟩ :=
    flowNode_key hname hstart (-1) fuel (depth + 1)
  refine ⟨colon, fuel + 1, hbefore, hfresh, ?_, ?_⟩
  · have hkey := List.length_pos_of_ne_nil hname.ne_nil
    rw [hfuel, hs]
    simp
    omega
  · obtain ⟨y, ys, hy, -, hindicator, -⟩ := hname.exists_head
    have hrest : c.skip.rest = y :: (ys ++ ':' :: ' ' :: rest) := by rw [hstart.rest_eq, hy]; rfl
    have hne : ∀ z ∈ ['&', '!', '|', '>'], z ∈ indicators := by decide
    have hnode := node_eq_flow hrest (fun hmem => hindicator (hne y hmem)) hend hitem
      (by rw [hstart.column_eq]; omega : ¬ (c.skip.fresh = true ∧ (c.skip.column : Int) ≤ -1)) true
      (fuel + 1) (depth + 1)
    rw [hkey, ok_bind] at hnode
    dsimp only at hnode
    rw [hcolon, hstart.column_eq] at hnode
    have hmark : ("---".toList.isPrefixOf c.skip.rest) = false := by
      rw [hstart.rest_eq]
      exact hname.isPrefixOf_marks _
    have hsize : 4 * (normalized s).length + 4 = fuel + 1 + 2 := by omega
    rw [compose]
    dsimp only
    rw [← hc, hallowed, hmark, hend, hsize]
    simp only [Bool.not_true, Bool.false_eq_true, if_false, Bool.and_false, hstart.fresh, hnode,
      if_true]
    cases blockMembers 0 (.plain key) (fuel + 1) depth colon <;> rfl

/-- **A document is read as its members.** -/
theorem compose_document {s : String} (h : Document ms (normalized s))
    (hallowed : (normalized s).all isAllowed = true) (depth : Nat) :
    ∃ n, compose (depth + 2) s = .ok n ∧ n.value = .ok (if ms = [] then .null else .ofMembers ms) ∧
      n.hasOddKey = false := by
  obtain ⟨w, hw⟩ : ∃ w, normalized s = w := ⟨_, rfl⟩
  have hline : ({ rest := normalized s } : Cursor).AtLine w := ⟨hw, rfl, rfl⟩
  rw [hw] at h
  cases h with
  | nil hremarks =>
    obtain ⟨hend, hskip, hatEnd⟩ := hremarks.skip_end hline
    refine ⟨.plain "", ?_, by decide +kernel, rfl⟩
    have hmark : "---".toList.isPrefixOf ([] : List Char) = false := rfl
    have hnode (blocks : Bool) (fuel : Nat) : node (-1) blocks (fuel + 1) (depth + 2)
        (Cursor.skip { rest := normalized s }) = .ok (.plain "", Cursor.skip { rest := normalized s }) := by
      rw [node, hatEnd, if_pos (.inl rfl)]
      rfl
    rw [compose]
    dsimp only
    rw [hallowed, hatEnd, hend, hmark]
    simp only [Bool.not_true, Bool.false_eq_true, if_false, Bool.and_false, hnode, hskip,
      isFinished_nil hend, if_true]
  | @entry key j ms r text w hremarks hname htext hvalue hdoc =>
    obtain ⟨colon, fuel, hbefore, hfresh, hfuel, hcompose⟩ :=
      compose_entry hremarks hname hw hallowed (depth + 1)
    obtain ⟨ns, c', hmembers, hns, hc'⟩ := blockMembers_document hdoc depth htext hvalue hbefore hfresh
      (show text.length + w.length + 7 ≤ fuel by simp at hfuel; omega)
    refine ⟨.mapping ns, ?_, by rw [hns.value_eq, if_neg (List.cons_ne_nil _ _)], hns.hasOddKey⟩
    rw [hcompose, hmembers]
    simp only [isFinished_nil hc', if_true]

end DeclGraph.Yaml
