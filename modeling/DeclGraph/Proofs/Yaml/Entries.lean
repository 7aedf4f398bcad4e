/-
  Members of a mapping, as they are read.

  A key stands on one line, and its value is read from the colon on.  Where lines without further
  values come, a scalar is read from what stands before them, unless it is in quotes.

  * `Entries`: the members that are read at the start of lines, from the value of one on;
  * `Entries.exists_place`: where a key is read, and what is passed before it;
  * `ScalarRead`: what a text before a document means as a scalar;
  * `blockValue_scalar`: a scalar is read as what the text means.
-/
import DeclGraph.Proofs.Yaml.Document
import DeclGraph.Proofs.Yaml.Overrun

namespace DeclGraph.Yaml

open Cursor

variable {c c' : Cursor} {u v w w' p cs rest F : List Char} {y : Char} {s : String}

/-! ## Keys -/

theorem Cursor.Passes.unique (h : c.Passes u c') (h' : c.Passes v c') : u = v :=
  List.append_cancel_right (h.rest_eq.symm.trans h'.rest_eq)

/-- A key that is read at the start of a line, up to its colon. -/
structure KeyAt (c : Cursor) (k : Node) (colon : Cursor) : Prop where
  column_eq : c.column = 0
  fresh : c.fresh = true
  reads : ∃ fuel depth after, flowNode false 0 false fuel depth c = .ok (k, after) ∧
    afterColon? c.line after = some colon

variable {k : Node} {colon : Cursor}

theorem KeyAt.exists_head (h : KeyAt c k colon) :
    ∃ y ys, c.rest = y :: ys ∧ isGap y = false ∧ y ≠ '#' := by
  obtain ⟨fuel, depth, after, hread, -⟩ := h.reads
  cases fuel with
  | zero => cases hread
  | succ fuel =>
    rw [flowNode.eq_def] at hread
    dsimp only at hread
    split at hread
    · exact ⟨_, _, ‹_›, by decide, by decide⟩
    · exact ⟨_, _, ‹_›, by decide, by decide⟩
    · exact ⟨_, _, ‹_›, by decide, by decide⟩
    · exact ⟨_, _, ‹_›, by decide, by decide⟩
    · split at hread
      · rename_i hstarts
        cases hrest : c.rest with
        | nil =>
          rw [hrest] at hstarts
          cases hstarts
        | cons y ys =>
          rw [hrest] at hstarts
          obtain ⟨hy, hopener⟩ := startsPlain_head hstarts
          exact ⟨y, ys, rfl, hy, by rintro rfl; exact hopener (by decide)⟩
      · cases hread

/-- A key stands on one line, and weighs no more than what is passed. -/
theorem KeyAt.passes (h : KeyAt c k colon) : ∃ v, c.Passes v colon ∧ (∀ y ∈ v, isBreak y = false) ∧
    ∀ W : Weight, W.node k ≤ W.total v := by
  obtain ⟨fuel, depth, after, hread, hcolon⟩ := h.reads
  obtain ⟨u, hu, -, hline⟩ := afterColon?_passes hcolon
  have hcosts (W : Weight) : W.Costs (W.node k) c after := (W.flowCosts fuel).node hread
  obtain ⟨v, hv, -⟩ := hcosts ⟨fun _ => 0, 0, fun _ _ => rfl, fun _ => Nat.le_refl _, fun _ _ => Nat.le_refl _⟩
  have hpass := hv.trans hu
  refine ⟨_, hpass, fun y hy => ?_, fun W => ?_⟩
  · have hcount : (v ++ (u ++ [':'])).countP isBreak = 0 := by
      have heq := hpass.line_eq
      omega
    exact eq_false_of_ne_true (List.countP_eq_zero.1 hcount y hy)
  · obtain ⟨v', hv', hle⟩ := hcosts W
    rw [hv'.unique hv] at hle
    rw [W.total_append]
    exact Nat.le_trans hle (Nat.le_add_right _ _)

/-- A name before a colon is read as a key. -/
theorem KeyAt.eq_of_name {key : String} (h : KeyAt c k colon) (hname : IsName key.toList)
    (hc : c.rest = key.toList ++ ':' :: ' ' :: rest) : k = .plain key := by
  obtain ⟨fuel, depth, after, hread, -⟩ := h.reads
  cases fuel with
  | zero => cases hread
  | succ fuel =>
    obtain ⟨after', colon', hkey, -⟩ := flowNode_key hname ⟨hc, h.column_eq, h.fresh⟩ 0 fuel depth
    exact (Prod.mk.inj (Except.ok.inj (hread.symm.trans hkey))).1

/-! ## Members -/

/-- The members that are read at the start of lines, from the value of one on. -/
inductive Entries : Node → Cursor → List (Node × Node) → Prop where
  | last {key x : Node} {c after : Cursor} {fuel depth : Nat} :
    blockValue 0 fuel depth c.skip = .ok (x, after) → Entries key c [(key, x)]
  | more {key x k : Node} {c after colon : Cursor} {fuel depth : Nat} {ms : List (Node × Node)} :
    blockValue 0 fuel depth c.skip = .ok (x, after) → KeyAt after.skip k colon → Entries k colon ms →
    Entries key c ((key, x) :: ms)

theorem entries_of_blockMembers {ms : List (Node × Node)} {fuel depth : Nat} : ∀ {key : Node} {c : Cursor},
    blockMembers 0 key fuel depth c = .ok (ms, c') → Entries key c ms := by
  induction fuel generalizing ms depth with
  | zero => exact fun h => nomatch h
  | succ fuel ih =>
    intro key c h
    rw [blockMembers.eq_def] at h
    dsimp only at h
    obtain ⟨⟨x, after⟩, hx, h⟩ := bind_eq_ok.1 h
    dsimp only at h
    split at h
    · cases h
      exact .last hx
    split at h
    · cases h
    rename_i hplace
    obtain ⟨⟨k, afterKey⟩, hk, h⟩ := bind_eq_ok.1 h
    dsimp only at h
    split at h
    · cases h
    rename_i colon hcolon
    obtain ⟨⟨ms, after'⟩, hms, heq⟩ := bind_eq_ok.1 h
    cases heq
    simp only [not_or, not_not, Bool.not_eq_true', Bool.not_eq_false] at hplace
    exact .more hx ⟨hplace.2.1, hplace.1, fuel, depth, afterKey, hk, hcolon⟩ (ih hms)

/-- **Where a key is read that is not the first one, and what is passed before it.** -/
theorem Entries.exists_place {key x : Node} {ms₁ ms₂ : List (Node × Node)}
    (h : Entries key c (ms₁ ++ (k, x) :: ms₂)) :
    k = key ∧ ms₁ = [] ∨ ∃ start colon,
      (∀ W : Weight, W.Costs (W.items (ms₁.map Prod.snd)) c start) ∧ KeyAt start k colon ∧
        Entries k colon ((k, x) :: ms₂) := by
  induction ms₁ generalizing key c with
  | nil =>
    refine .inl ⟨?_, rfl⟩
    cases h <;> rfl
  | cons m ms₁ ih =>
    generalize hms : (m :: ms₁) ++ (k, x) :: ms₂ = ms at h
    cases h with
    | last h => simp at hms
    | @more _ x' k' _ after colon fuel depth ms h hk hmore =>
      obtain ⟨rfl, rfl⟩ := List.cons.inj hms
      have hvalue (W : Weight) : W.Costs (W.node x') c after.skip :=
        (((W.costs_skip c).trans ((W.blockCosts fuel).value h)).skip).mono (Nat.le_add_left _ _)
      rcases ih hmore with ⟨rfl, rfl⟩ | ⟨start, colon', hstart, hkey, hentries⟩
      · exact .inr ⟨after.skip, colon, hvalue, hk, hmore⟩
      · refine .inr ⟨start, colon', fun W => ?_, hkey, hentries⟩
        obtain ⟨v, hv, -⟩ := hk.passes
        exact ((hvalue W).trans ((Weight.Costs.of_passes hv).trans (hstart W))).mono
          (by rw [List.map_cons, Weight.items, Nat.zero_add])

theorem Entries.value {key x : Node} {ms : List (Node × Node)} (h : Entries key c ((k, x) :: ms)) :
    ∃ fuel depth after, blockValue 0 fuel depth c.skip = .ok (x, after) ∧
      (ms = [] ∨ ∃ k' colon, KeyAt after.skip k' colon) := by
  cases h with
  | last h => exact ⟨_, _, _, h, .inl rfl⟩
  | more h hk _ => exact ⟨_, _, _, h, .inr ⟨_, _, hk⟩⟩

/-! ## Places before a document -/

/-- A part of a text without a line break ends before the line does. -/
theorem exists_append_of_line (hv : ∀ y ∈ v, isBreak y = false) (h : v ++ rest = w ++ '\n' :: F) :
    ∃ w', w = v ++ w' ∧ rest = w' ++ '\n' :: F := by
  refine eq_append_of_notMem ?_ h
  rintro y hy rfl
  exact absurd (hv '\n' hy) (by decide)

/-- A place where no value can begin: the end, or the start of a line without a tag or an anchor. -/
structure Cursor.IsOver (c : Cursor) : Prop where
  atBound : c.atEnd = true ∨ c.fresh = true ∧ c.column = 0
  head : ∀ y ∈ c.rest.head?, y ≠ '&' ∧ y ≠ '!'

variable {ms : List (String × Json)}

theorem Document.isOver (hF : Document ms F) (hc : c.AtLine F) : c.skip.IsOver := by
  cases hF with
  | nil hremarks =>
    obtain ⟨hend, -, hatEnd⟩ := hremarks.skip_end hc
    exact ⟨.inl hatEnd, by rw [hend]; exact nofun⟩
  | entry hremarks hname _ _ _ =>
    obtain ⟨hline, -, -⟩ := hremarks.skip_name hname hc
    refine ⟨.inr ⟨hline.fresh, hline.column_eq⟩, ?_⟩
    obtain ⟨y, ys, hy, -, hindicator, -⟩ := hname.exists_head
    rw [hline.rest_eq, hy]
    rintro z ⟨⟩
    have hmarks : ∀ z ∈ ['&', '!'], z ∈ indicators := by decide
    exact ⟨fun h => hindicator (hmarks y (by simp [h])), fun h => hindicator (hmarks y (by simp [h]))⟩

/-- The next token stands before the end of the line, or after it. -/
theorem skip_cases (hc : c.rest = w ++ '\n' :: F) :
    (∃ p w', w = p ++ w' ∧ c.Passes p c.skip ∧ c.skip.rest = w' ++ '\n' :: F) ∨
      ∃ next : Cursor, c.skip = next.skip ∧ next.AtLine F := by
  obtain ⟨text, line, column, fresh⟩ := c
  obtain rfl : text = w ++ '\n' :: F := hc
  suffices h : ∀ (w : List Char) (line column : Nat) (fresh comment : Bool),
      (∃ p w', w = p ++ w' ∧ Passes ⟨w ++ '\n' :: F, line, column, fresh⟩ p
        (skip.go line column fresh comment (w ++ '\n' :: F)) ∧
        (skip.go line column fresh comment (w ++ '\n' :: F)).rest = w' ++ '\n' :: F) ∨
      ∃ next : Cursor, skip.go line column fresh comment (w ++ '\n' :: F) = next.skip ∧ next.AtLine F from
    h w line column fresh false
  intro w
  induction w with
  | nil =>
    intro line column fresh comment
    have hbreak : isBreak '\n' = true := by decide
    exact .inr ⟨⟨F, line + 1, 0, true⟩, by rw [List.nil_append, skip.go, if_pos hbreak]; rfl, rfl, rfl, rfl⟩
  | cons y w ih =>
    intro line column fresh comment
    have hcons {c' c'' : Cursor} (hstep : Passes ⟨y :: w ++ '\n' :: F, line, column, fresh⟩ [y] c')
        (h : (∃ p w', w = p ++ w' ∧ c'.Passes p c'' ∧ c''.rest = w' ++ '\n' :: F) ∨
          ∃ next : Cursor, c'' = next.skip ∧ next.AtLine F) :
        (∃ p w', y :: w = p ++ w' ∧ Passes ⟨y :: w ++ '\n' :: F, line, column, fresh⟩ p c'' ∧
          c''.rest = w' ++ '\n' :: F) ∨ ∃ next : Cursor, c'' = next.skip ∧ next.AtLine F := by
      refine h.imp_left ?_
      rintro ⟨p, w', rfl, hpass, hrest⟩
      exact ⟨y :: p, w', rfl, hstep.trans hpass, hrest⟩
    rw [List.cons_append, skip.go]
    split
    · rename_i hy
      exact hcons (passes_newline rfl hy) (ih _ _ _ _)
    rename_i hy
    have hstep : Passes ⟨y :: w ++ '\n' :: F, line, column, fresh⟩ [y] ⟨w ++ '\n' :: F, line, column + 1, fresh⟩ :=
      (passes_one rfl (eq_false_of_ne_true hy)).fresh fresh
    split
    · exact hcons hstep (ih _ _ _ _)
    split
    · exact hcons hstep (ih _ _ _ _)
    · exact .inl ⟨[], y :: w, rfl, .refl _, rfl⟩

theorem Cursor.IsOver.properties? (h : c.IsOver) {fuel : Nat} {tagged tagged' : Bool}
    (hread : properties? fuel tagged c = some (tagged', c')) : tagged' = tagged ∧ c' = c := by
  cases fuel with
  | zero => cases hread
  | succ fuel =>
    have hhead := h.head
    rw [Yaml.properties?] at hread
    split at hread
    · rename_i hrest
      rw [hrest] at hhead
      exact absurd rfl (hhead '&' rfl).1
    · rename_i hrest
      rw [hrest] at hhead
      exact absurd rfl (hhead '!' rfl).2
    · cases hread
      exact ⟨rfl, rfl⟩

/-- Whether a place is before the end of a line, after a part of it, or no value can begin there. -/
def StaysOrOver (F w : List Char) (c c' : Cursor) : Prop :=
  (∃ p w', w = p ++ w' ∧ c.Passes p c' ∧ c'.rest = w' ++ '\n' :: F) ∨ c'.IsOver

theorem StaysOrOver.after {next : Cursor} (h : StaysOrOver F w next c') (hv : c.Passes v next) :
    StaysOrOver F (v ++ w) c c' := by
  refine h.imp_left ?_
  rintro ⟨p, w', rfl, hp, hrest⟩
  exact ⟨v ++ p, w', (List.append_assoc v p w').symm, hv.trans hp, hrest⟩

/-- What stands after the tags and anchors of a node. -/
theorem properties?_cases (hF : Document ms F) {fuel : Nat} : ∀ {c : Cursor} {w : List Char}
    {tagged tagged' : Bool}, c.rest = w ++ '\n' :: F → properties? fuel tagged c = some (tagged', c') →
      (∀ W : Weight, W.tag tagged' ≤ W.tag tagged + W.total w) ∧ StaysOrOver F w c c' := by
  induction fuel with
  | zero => exact fun _ h => nomatch h
  | succ fuel ih =>
    intro c w tagged tagged' hc h
    have hstep {v : List Char} {next : Cursor} {t : Bool} (hpass : c.Passes v next)
        (hv : ∀ y ∈ v, isBreak y = false) (ht : ∀ W : Weight, W.tag t ≤ W.tag tagged + W.total v)
        (h : Yaml.properties? fuel t next.skip = some (tagged', c')) :
        (∀ W : Weight, W.tag tagged' ≤ W.tag tagged + W.total w) ∧ StaysOrOver F w c c' := by
      obtain ⟨w₁, rfl, hnext⟩ := exists_append_of_line hv (hpass.rest_eq.symm.trans hc)
      rcases skip_cases hnext with ⟨p, w₂, rfl, hskip, hrest⟩ | ⟨line, hskip, hline⟩
      · obtain ⟨htag, hplace⟩ := ih hrest h
        refine ⟨fun W => ?_, ?_⟩
        · have hle := htag W
          have hle' := ht W
          rw [W.total_append, W.total_append]
          omega
        · exact (hplace.after hskip).after hpass
      · have hover := hF.isOver hline
        rw [← hskip] at hover
        obtain ⟨rfl, rfl⟩ := hover.properties? h
        refine ⟨fun W => ?_, .inr hover⟩
        have hle := ht W
        rw [W.total_append]
        omega
    rw [Yaml.properties?] at h
    split at h
    · rename_i rest hrest
      dsimp only at h
      split at h
      · cases h
      · refine hstep (passes_name hrest (by decide) _ fun y => Weight.isBreak_of_anchor) ?_ ?_ h
        · exact List.forall_mem_cons.2 ⟨by decide, fun y hy =>
            Weight.isBreak_of_anchor (by simpa using List.mem_takeWhile_imp hy)⟩
        · exact fun W => Nat.le_add_right _ _
    · rename_i rest hrest
      dsimp only at h
      split at h
      · refine hstep (passes_name hrest (by decide) (fun ch => !isGap ch)
          fun y hy => isBreak_of_isGap (by simpa using hy)) ?_ ?_ h
        · exact List.forall_mem_cons.2 ⟨by decide, fun y hy =>
            isBreak_of_isGap (by simpa using List.mem_takeWhile_imp hy)⟩
        · exact fun W => Nat.le_trans (Weight.mark_le_of (by simp) _) (Nat.le_add_left _ _)
      · cases h
    · cases h
      exact ⟨fun W => Nat.le_add_right _ _, .inl ⟨[], w, rfl, .refl _, hc⟩⟩

/-! ## Scalars before a document -/

/-- Where no line is set in, only line breaks stand after a line that a hanging text has passed. -/
theorem Hanging.exists_breaks (hF : Flush F) : ∀ {z : List Char} {y : Char}, isBreak y = true →
    Hanging (y :: z) → F = z ++ rest → ∀ b ∈ z, isBreak b = true := by
  induction F with
  | nil =>
    intro z y _ _ h
    obtain rfl := (List.append_eq_nil_iff.1 h.symm).1
    exact nofun
  | cons x F ih =>
    intro z y hy hz h
    cases z with
    | nil => exact nofun
    | cons b z =>
      obtain ⟨rfl, rfl⟩ := List.cons.inj h
      have hb : isBreak x = true := ((List.isChain_cons_cons.1 hz).1 hy).resolve_left hF.1
      exact List.forall_mem_cons.2 ⟨hb, ih (hF.2 hb) hb (List.isChain_cons_cons.1 hz).2 rfl⟩

/-- A hanging text ends with its line, but for line breaks. -/
theorem Hanging.exists_append (hv : Hanging v) (hF : Flush F) (h : v ++ rest = w ++ '\n' :: F) :
    (∃ w', w = v ++ w') ∨ ∃ bs, v = w ++ bs ∧ bs ≠ [] ∧ ∀ b ∈ bs, isBreak b = true := by
  refine (append_or h).imp (fun ⟨w', hw, _⟩ => ⟨w', hw⟩) ?_
  rintro ⟨z, rfl, hz⟩
  have hbreak : isBreak '\n' = true := by decide
  have hhang : Hanging ('\n' :: z) := (List.isChain_append.1 hv).2.1
  exact ⟨'\n' :: z, rfl, List.cons_ne_nil _ _,
    List.forall_mem_cons.2 ⟨hbreak, hhang.exists_breaks hF hbreak hz⟩⟩

theorem Hung.exists_append (hv : Hung v) (hF : Flush F) (h : v ++ rest = w ++ '\n' :: F) :
    ∃ w', w = v ++ w' := by
  refine (hv.hanging.exists_append hF h).resolve_right ?_
  rintro ⟨bs, rfl, hne, hbs⟩
  obtain ⟨b, hb⟩ := Option.ne_none_iff_exists'.1 (mt List.getLast?_eq_none_iff.1 hne)
  have hlast := hv.last b (by rw [List.getLast?_append_of_ne_nil _ hne, hb]; rfl)
  rw [hbs b (List.mem_of_getLast? hb)] at hlast
  cases hlast

theorem PlainRead.hung (h : PlainRead true v cs) : Hung v := by
  induction h with
  | word hword => exact (calm_of_line fun y hy => isBreak_of_isGap (hword y hy)).toHung
  | @more word u v cs hword hu hlast _ _ ih =>
    refine (calm_of_line fun y hy => isBreak_of_isGap (hword y hy)).toHung.append (Hung.append ⟨?_, ?_⟩ ih)
    · exact List.nil_append u ▸ hanging_append_spacing .nil hu
    · rw [hlast rfl]
      decide

theorem length_gapMeaning (u : List Char) : (gapMeaning u).length ≤ u.length := by
  rw [gapMeaning]
  split_ifs
  · exact Nat.le_trans (length_foldBreaks _) (List.length_filter_le _ _)
  · exact Nat.le_refl _

/-- No blanks but line breaks are lost. -/
theorem gapMeaning_eq_self (hlast : u.getLast? = some ' ') (h : u.length ≤ (gapMeaning u).length) :
    gapMeaning u = u ∧ ∀ y ∈ u, isBreak y = false := by
  by_cases hbreak : u.any isBreak = true
  · rw [gapMeaning, if_pos hbreak] at h
    have hlt : (u.filter isBreak).length < u.length :=
      List.length_filter_lt_length_iff_exists.2 ⟨' ', List.mem_of_getLast? hlast, by decide⟩
    have hle := length_foldBreaks (u.filter isBreak)
    omega
  · exact ⟨by rw [gapMeaning, if_neg hbreak], by simpa using hbreak⟩

theorem PlainRead.length_le {indented : Bool} (h : PlainRead indented v cs) : cs.length ≤ v.length := by
  induction h with
  | word _ => exact Nat.le_refl _
  | @more word u v cs _ _ _ _ _ ih =>
    have hle := length_gapMeaning u
    simp only [List.length_append]
    omega

/-- **A text without quotes that loses nothing is on one line.** -/
theorem PlainRead.eq_of_length (h : PlainRead true v cs) (hle : v.length ≤ cs.length) :
    v = cs ∧ ∀ y ∈ cs, isBreak y = false := by
  induction h with
  | word hword => exact ⟨rfl, fun y hy => isBreak_of_isGap (hword y hy)⟩
  | @more word u v cs hword _ hlast _ hread ih =>
    have hgap := length_gapMeaning u
    have hrest := hread.length_le
    simp only [List.length_append] at hle
    obtain ⟨heq, hline⟩ := gapMeaning_eq_self (hlast rfl) (by omega)
    obtain ⟨rfl, hcs⟩ := ih (by omega)
    rw [heq]
    exact ⟨rfl, List.forall_mem_append.2 ⟨fun y hy => isBreak_of_isGap (hword y hy),
      List.forall_mem_append.2 ⟨hline, hcs⟩⟩⟩

/-- How the text `w` before a document `F` means a scalar `s`, from the place `c` to another one: by a
    part of it with a tag or in quotes or in block style, by a part of it without quotes, or in quotes
    that are closed in the document. -/
inductive ScalarRead (F : List Char) (c c' : Cursor) (w : List Char) (s : String) : Prop where
  | text : (∀ W : Weight, W.total s.toList + W.mark ≤ W.total w) → ScalarRead F c c' w s
  | plain {p v r : List Char} {start : Cursor} : isText s = true → w = p ++ (v ++ r) →
    c.Passes p start → start.rest = v ++ r ++ '\n' :: F → startsPlain false start.rest = true →
    plain false 0 (start.rest.length + 1) start = (s.toList, c') → PlainRead true v s.toList →
    ScalarRead F c c' w s
  | single {p v z : List Char} : w = p ++ '\'' :: v → F = z ++ c'.rest →
    SingleRead (v ++ '\n' :: z) s.toList → ScalarRead F c c' w s
  | double {p v z : List Char} : w = p ++ '"' :: v → F = z ++ c'.rest →
    DoubleRead (v ++ '\n' :: z) s.toList → ScalarRead F c c' w s

theorem ScalarRead.after {next : Cursor} (h : ScalarRead F next c' w s) (hv : c.Passes v next) :
    ScalarRead F c c' (v ++ w) s := by
  cases h with
  | text h => exact .text fun W => by rw [W.total_append]; exact Nat.le_trans (h W) (Nat.le_add_left _ _)
  | plain htext hw hp hrest hstarts hplain hread =>
    exact .plain htext (by rw [hw, List.append_assoc]) (hv.trans hp) hrest hstarts hplain hread
  | single hw hF hread => exact .single (by rw [hw, List.append_assoc]) hF hread
  | double hw hF hread => exact .double (by rw [hw, List.append_assoc]) hF hread

/-! ## Reading scalars -/

variable {x : Node} {fuel depth : Nat} {tagged : Bool}

theorem isText_empty : isText "" = false := by decide +kernel

/-- Nothing stands for no text, unless a tag says so. -/
theorem isScalar_plainNode_nil (h : (plainNode tagged []).IsScalar s) : tagged = true ∧ s = "" := by
  cases tagged with
  | true =>
    rw [plainNode, if_pos rfl] at h
    cases h
    exact ⟨rfl, rfl⟩
  | false =>
    rw [plainNode, if_neg Bool.false_ne_true] at h
    cases h with
    | plain htext => exact absurd htext (by rw [show String.ofList [] = "" from rfl, isText_empty]; simp)

theorem not_isScalar_of_blockList {column : Nat} (h : blockList column fuel depth c = .ok (x, c')) :
    ¬ x.IsScalar s := by
  intro hx
  cases fuel with
  | zero => cases h
  | succ fuel =>
    rw [blockList.eq_def] at h
    dsimp only at h
    split at h
    · cases h
    · obtain ⟨⟨xs, after⟩, -, heq⟩ := bind_eq_ok.1 h
      cases heq
      cases hx

/-- A mark stands on the line. -/
theorem exists_after_mark {mark : Char} {more : List Char} (hmark : isBreak mark = false)
    (hrest : c.rest = mark :: more) (hc : c.rest = w ++ '\n' :: F) :
    ∃ w', w = mark :: w' ∧ (c.forward 1).rest = w' ++ '\n' :: F := by
  obtain ⟨w', rfl, hnext⟩ := exists_append_of_line (v := [mark]) (by simpa using hmark)
    (hrest.symm.trans hc)
  exact ⟨w', rfl, by rw [Cursor.forward, hrest, ← hnext]; rfl⟩

/-- What is read between quotes weighs no more than a text that they stand in. -/
theorem ScalarRead.of_quoted {mark : Char} (h : ∀ W : Weight, W.total cs + W.mark ≤ W.total v) :
    ScalarRead F c c' (mark :: (v ++ w)) (String.ofList cs) :=
  .text fun W => by
    have hle := h W
    rw [String.toList_ofList, W.total_cons, W.total_append]
    omega

theorem single_scalar {more : List Char} {n : Nat} (hrest : c.rest = '\'' :: more)
    (hc : c.rest = w ++ '\n' :: F) (h : single? n (c.forward 1) = some (cs, c')) :
    ScalarRead F c c' w (String.ofList cs) := by
  obtain ⟨v, hv, hread⟩ := single?_read h
  obtain ⟨w, rfl, hnext⟩ := exists_after_mark (by decide) hrest hc
  rcases append_or (hv.rest_eq.symm.trans hnext) with ⟨w, rfl, -⟩ | ⟨z, rfl, hz⟩
  · exact .of_quoted fun W => Weight.total_le_of_singleRead hread
  · exact .single (p := []) rfl hz (by rwa [String.toList_ofList])

theorem double_scalar {more : List Char} {n : Nat} (hrest : c.rest = '"' :: more)
    (hc : c.rest = w ++ '\n' :: F) (h : double? n (c.forward 1) = some (cs, c')) :
    ScalarRead F c c' w (String.ofList cs) := by
  obtain ⟨v, hv, hread⟩ := double?_read h
  obtain ⟨w, rfl, hnext⟩ := exists_after_mark (by decide) hrest hc
  rcases append_or (hv.rest_eq.symm.trans hnext) with ⟨w, rfl, -⟩ | ⟨z, rfl, hz⟩
  · exact .of_quoted fun W => Weight.total_le_of_doubleRead hread
  · exact .double (p := []) rfl hz (by rwa [String.toList_ofList])

theorem plain_scalar (hF : Flush F) (hc : c.rest = w ++ '\n' :: F)
    (hstarts : startsPlain false c.rest = true)
    (hplain : plain false 0 (c.rest.length + 1) c = (cs, c')) (hx : (plainNode tagged cs).IsScalar s) :
    ScalarRead F c c' w s ∨ tagged = true ∧ ∀ W : Weight, W.total s.toList ≤ W.total w := by
  obtain ⟨v, hv, hread⟩ := plain_read true (fun _ => ⟨rfl, Int.le_refl 0⟩) hplain
  obtain ⟨r, rfl⟩ := hread.hung.exists_append hF (hv.rest_eq.symm.trans hc)
  cases tagged with
  | true =>
    rw [plainNode, if_pos rfl] at hx
    cases hx
    refine .inr ⟨rfl, fun W => ?_⟩
    rw [String.toList_ofList, W.total_append]
    exact Nat.le_trans (Weight.total_le_of_plainRead hread) (Nat.le_add_right _ _)
  | false =>
    rw [plainNode, if_neg Bool.false_ne_true] at hx
    cases hx with
    | plain htext =>
      rw [← String.toList_ofList (l := cs)] at hplain hread
      exact .inl (.plain (p := []) htext rfl (.refl c) hc hstarts hplain hread)

/-- A scalar in flow style. -/
theorem flowNode_scalar (hF : Flush F) (hc : c.rest = w ++ '\n' :: F)
    (h : flowNode false 0 tagged fuel depth c = .ok (x, c')) (hx : x.IsScalar s) :
    ScalarRead F c c' w s ∨ tagged = true ∧ ∀ W : Weight, W.total s.toList ≤ W.total w := by
  cases fuel with
  | zero => cases h
  | succ fuel =>
    rw [flowNode.eq_def] at h
    dsimp only at h
    split at h
    · split at h
      · cases h
      split at h
      · cases h
      · obtain ⟨⟨xs, after⟩, -, heq⟩ := bind_eq_ok.1 h
        cases heq
        cases hx
    · split at h
      · cases h
      split at h
      · cases h
      · obtain ⟨⟨ns, after⟩, -, heq⟩ := bind_eq_ok.1 h
        cases heq
        cases hx
    · obtain ⟨cs, hcs, rfl⟩ := Weight.textNode_eq_ok h
      cases hx
      exact .inl (single_scalar ‹_› hc hcs)
    · obtain ⟨cs, hcs, rfl⟩ := Weight.textNode_eq_ok h
      cases hx
      exact .inl (double_scalar ‹_› hc hcs)
    · split at h
      · obtain ⟨cs, after, hplain⟩ :
          ∃ cs after, plain false 0 (c.rest.length + 1) c = (cs, after) := ⟨_, _, rfl⟩
        rw [hplain] at h
        cases h
        exact plain_scalar hF hc ‹_› hplain hx
      · cases h

/-- A scalar in block style. -/
theorem blockScalar_scalar (hF : Flush F) {mark : Char} {more : List Char} {folded : Bool} {indent : Int}
    (hmark : mark ∈ ['|', '>']) (hrest : c.rest = mark :: more) (hc : c.rest = w ++ '\n' :: F)
    (h : textNode (blockScalar? folded indent (c.forward 1)) = .ok (x, c')) (hx : x.IsScalar s) :
    ScalarRead F c c' w s := by
  have hbreak : ∀ y ∈ ['|', '>'], isBreak y = false := by decide
  have hmarks : ∀ y ∈ ['|', '>'], y ∈ ['\'', '"', '|', '>', '!'] := by decide
  obtain ⟨w', rfl, hline⟩ := exists_after_mark (hbreak mark hmark) hrest hc
  obtain ⟨cs, hcs, rfl⟩ := Weight.textNode_eq_ok h
  cases hx
  obtain ⟨v, hv, hhang, hsolids⟩ := blockScalar?_read hcs
  refine .text fun W => ?_
  have hweight := W.mark_le mark (hmarks mark hmark)
  have hle := Weight.total_le_of_sublist (W := W) hsolids
  rw [Weight.total_solids, Weight.total_solids] at hle
  have hv' : W.total v ≤ W.total w' := by
    rcases hhang.exists_append hF (hv.rest_eq.symm.trans hline) with ⟨r, rfl⟩ | ⟨bs, rfl, -, hbs⟩
    · rw [W.total_append]
      exact Nat.le_add_right _ _
    · have hgaps : W.total bs = 0 :=
        Weight.total_of_gaps fun b hb => isGap_of_space_or_break (.inr (hbs b hb))
      rw [W.total_append, hgaps]
      exact Nat.le_refl _
  rw [String.toList_ofList, W.total_cons]
  omega

/-- A scalar after its tags and anchors. -/
theorem content_scalar (hF : Flush F) {blocks : Bool} (hc : c.rest = w ++ '\n' :: F)
    (h : content 0 blocks tagged fuel depth c = .ok (x, c')) (hx : x.IsScalar s) :
    ScalarRead F c c' w s ∨ tagged = true ∧ ∀ W : Weight, W.total s.toList ≤ W.total w := by
  cases fuel with
  | zero => cases h
  | succ fuel =>
    rw [content.eq_def] at h
    dsimp only at h
    split at h
    · cases h
      obtain ⟨htagged, rfl⟩ := isScalar_plainNode_nil hx
      exact .inr ⟨htagged, fun W => Nat.zero_le _⟩
    split at h
    · split at h
      · exact absurd hx (not_isScalar_of_blockList h)
      · cases h
    split at h
    · exact .inl (blockScalar_scalar hF (by decide : '|' ∈ ['|', '>']) ‹_› hc h hx)
    · exact .inl (blockScalar_scalar hF (by decide : '>' ∈ ['|', '>']) ‹_› hc h hx)
    · obtain ⟨⟨y, after⟩, hy, h⟩ := bind_eq_ok.1 h
      dsimp only at h
      split at h
      · cases h
        exact flowNode_scalar hF hc hy hx
      · split at h
        · split at h
          · cases h
          · obtain ⟨⟨ns, after'⟩, -, heq⟩ := bind_eq_ok.1 h
            cases heq
            cases hx
        · cases h

/-- Where no value can begin nothing stands for a text, unless a tag says so. -/
theorem Cursor.IsOver.content_scalar (hover : c.IsOver) {blocks : Bool}
    (h : content 0 blocks tagged fuel depth c = .ok (x, c')) (hx : x.IsScalar s) :
    tagged = true ∧ s = "" := by
  cases fuel with
  | zero => cases h
  | succ fuel =>
    rw [content.eq_def] at h
    dsimp only at h
    rw [if_pos (hover.atBound.imp_right (And.imp_right fun hzero => by omega))] at h
    cases h
    exact isScalar_plainNode_nil hx

/-- **A scalar is read as what the text before a document means.** -/
theorem blockValue_scalar (hF : Document ms F) (hc : c.rest = w ++ '\n' :: F)
    (h : blockValue 0 fuel depth c.skip = .ok (x, c')) (hx : x.IsScalar s) : ScalarRead F c c' w s := by
  have hempty : ¬ (plainNode false []).IsScalar s := fun h => nomatch (isScalar_plainNode_nil h).1
  cases fuel with
  | zero => cases h
  | succ fuel =>
    rw [blockValue.eq_def] at h
    dsimp only at h
    split at h
    · exact absurd hx (not_isScalar_of_blockList h)
    cases fuel with
    | zero => cases h
    | succ fuel =>
      rw [node.eq_def] at h
      dsimp only at h
      split at h
      · cases h
        exact absurd hx hempty
      rename_i hplace
      obtain ⟨⟨tagged, start⟩, hproperties, h⟩ := bind_eq_ok.1 h
      rcases skip_cases hc with ⟨p, w, rfl, hskip, hrest⟩ | ⟨line, hskip, hline⟩
      · refine ScalarRead.after ?_ hskip
        have hcosts (W : Weight) := Weight.properties_costs (W := W) hproperties
        rw [properties] at hproperties
        split at hproperties
        · rename_i found hfound
          cases hproperties
          obtain ⟨htag, hstart⟩ := properties?_cases hF hrest hfound
          rcases hstart with ⟨p', w, rfl, hpass, hrest'⟩ | hover
          · rcases content_scalar hF.flush hrest' h hx with hread | ⟨rfl, hle⟩
            · exact hread.after hpass
            · refine .text fun W => ?_
              obtain ⟨v, hv, htag⟩ := hcosts W
              rw [hv.unique hpass] at htag
              have hle := hle W
              have hmark : W.mark ≤ W.total p' := htag
              rw [W.total_append]
              omega
          · obtain ⟨rfl, rfl⟩ := hover.content_scalar h hx
            refine .text fun W => ?_
            have hmark : W.mark ≤ W.tag false + W.total w := htag W
            have hnone : W.tag false = 0 := rfl
            have htext : W.total "".toList = 0 := rfl
            omega
        · cases hproperties
      · have hover := (hF.isOver hline).atBound
        rw [← hskip] at hover
        exact absurd (hover.imp_right (And.imp_right fun hzero => by omega)) hplace

end DeclGraph.Yaml
