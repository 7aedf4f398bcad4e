/-
  Scalars in block style, and colons of keys.

  The lines of a block scalar are set in.  It holds their characters in their order, and no others but
  line breaks and spaces.

  * `Hanging`: a text whose further lines are set in;
  * `solids`: the characters of a text that are no blanks;
  * `blockScalar?_read`: what is read of a block scalar stands in the lines that are passed;
  * `afterColon?_passes`: a colon stands on the line of its key.
-/
import DeclGraph.Proofs.Yaml.Scan

namespace DeclGraph.Yaml

open Cursor

variable {c c' : Cursor} {u v cs rest : List Char} {y : Char}

/-! ## Block scalars -/

/-- Whether every line break is followed by a blank or by another one. -/
def Hanging (w : List Char) : Prop :=
  w.IsChain fun a b => isBreak a = true → b = ' ' ∨ isBreak b = true

theorem hanging_append_line (hu : Hanging u) (hv : ∀ y ∈ v, isBreak y = false)
    (hlast : v ≠ [] → ¬ EndsLine u ∨ u = []) : Hanging (u ++ v) := by
  refine List.isChain_append.2 ⟨hu, ?_, fun a ha b hb hbreak => ?_⟩
  · refine (List.pairwise_of_forall_mem_list fun a ha b _ hbreak => ?_).isChain
    rw [hv a ha] at hbreak
    cases hbreak
  · rcases hlast (by rintro rfl; cases hb) with h | rfl
    · refine absurd (fun z hz => ?_) h
      rw [← Option.mem_unique ha hz]
      exact hbreak
    · cases ha

theorem hanging_append_spacing (hu : Hanging u) (hv : ∀ y ∈ v, y = ' ' ∨ isBreak y = true) :
    Hanging (u ++ v) := by
  refine List.isChain_append.2 ⟨hu, ?_, fun a _ b hb _ => hv b (List.mem_of_head? hb)⟩
  have hpairs : v.Pairwise fun a b => isBreak a = true → b = ' ' ∨ isBreak b = true :=
    List.pairwise_of_forall_mem_list fun a _ b hb _ => hv b hb
  exact hpairs.isChain

/-- The characters of a text but blanks and line breaks. -/
def solids (w : List Char) : List Char := w.filter fun y => !isGap y

theorem solids_append (u v : List Char) : solids (u ++ v) = solids u ++ solids v :=
  List.filter_append _ _

theorem solids_of_gaps (h : ∀ y ∈ u, isGap y = true) : solids u = [] :=
  List.filter_eq_nil_iff.2 fun y hy => by simp [h y hy]

theorem isGap_of_space_or_break (h : y = ' ' ∨ isBreak y = true) : isGap y = true :=
  Spacing.isGap (h.imp_right .inr)

/-- A line break is passed, or nothing at the end of the text. -/
theorem passes_newline_or_end (h : ∀ y ∈ c.rest.head?, isBreak y = true) :
    c.Passes (c.rest.take 1) c.newline ∧ ∀ y ∈ c.rest.take 1, isBreak y = true := by
  cases hrest : c.rest with
  | nil =>
    have hnext : c.newline = c := by rw [Cursor.newline, hrest]
    rw [hnext]
    exact ⟨.refl c, by simp⟩
  | cons y rest =>
    rw [hrest] at h
    exact ⟨passes_newline hrest (h y rfl), by simpa using h y rfl⟩

/-- The rest of a line is passed, and the line break at its end. -/
theorem passes_line {line : List Char} (hline : c.rest.takeWhile (fun ch => !isBreak ch) = line) :
    c.Passes line (c.forward line.length) ∧
      (c.forward line.length).Passes ((c.forward line.length).rest.take 1)
        (c.forward line.length).newline ∧
      (∀ y ∈ line, isBreak y = false) ∧
      ∀ y ∈ (c.forward line.length).rest.take 1, isBreak y = true := by
  subst hline
  have hhead : ∀ y ∈ (c.forward (c.rest.takeWhile fun ch => !isBreak ch).length).rest.head?,
      isBreak y = true :=
    fun y hy => by simpa using head_drop_takeWhile (fun ch => !isBreak ch) c.rest y hy
  obtain ⟨hend, hbreak⟩ := passes_newline_or_end hhead
  exact ⟨passes_takeWhile _ fun y hy => by simpa using hy, hend,
    fun y hy => by simpa using List.mem_takeWhile_imp hy, hbreak⟩

theorem passes_spaces {n : Nat} (h : n ≤ (c.rest.takeWhile (· == ' ')).length) :
    ∃ u, c.Passes u (c.forward n) ∧ ∀ y ∈ u, y = ' ' := by
  have htake : c.rest.take n = (c.rest.takeWhile (· == ' ')).take n := by
    rw [← List.take_append_of_le_length h, List.takeWhile_append_dropWhile]
  have hblank : ∀ y ∈ c.rest.take n, y = ' ' := by
    intro y hy
    rw [htake] at hy
    simpa using List.mem_takeWhile_imp (List.mem_of_mem_take hy)
  have hpass := passes_forward (c := c) (List.take_append_drop n c.rest).symm
    fun y hy => by rw [hblank y hy]; rfl
  rw [htake, List.length_take_of_le h, ← htake] at hpass
  exact ⟨_, hpass, hblank⟩

/-- One line is looked at, as far as it is empty. -/
theorem blankLines_succ (fuel : Nat) (limit : Option Nat) (c : Cursor) :
    ∃ n ≤ (c.rest.takeWhile (· == ' ')).length, blankLines (fuel + 1) limit c =
      match (c.forward n).rest with
      | ch :: _ =>
        if isBreak ch then
          let (bs, widest, c) := blankLines fuel limit (c.forward n).newline
          (ch :: bs, max n widest, c)
        else ([], n, c.forward n)
      | [] => ([], n, c.forward n) := by
  cases limit with
  | none => exact ⟨_, Nat.le_refl _, rfl⟩
  | some k => exact ⟨_, Nat.min_le_right k _, rfl⟩

theorem blankLines_read {bs : List Char} {limit : Option Nat} {widest fuel : Nat} :
    ∀ {c : Cursor}, blankLines fuel limit c = (bs, widest, c') →
      ∃ u, c.Passes u c' ∧ (∀ y ∈ u, y = ' ' ∨ isBreak y = true) ∧ ∀ b ∈ bs, isGap b = true := by
  induction fuel generalizing bs widest with
  | zero =>
    intro c h
    cases h
    exact ⟨[], .refl _, nofun, nofun⟩
  | succ fuel ih =>
    intro c h
    obtain ⟨n, hn, heq⟩ := blankLines_succ fuel limit c
    obtain ⟨u, hpass, hblank⟩ := passes_spaces hn
    rw [heq] at h
    split at h
    · rename_i ch rest hrest
      split at h
      · rename_i hbreak
        obtain ⟨bs', widest', after, hmore⟩ : ∃ bs' widest' after,
            blankLines fuel limit (c.forward n).newline = (bs', widest', after) := ⟨_, _, _, rfl⟩
        rw [hmore] at h
        cases h
        obtain ⟨v, hv, hgaps, hbs⟩ := ih hmore
        refine ⟨_, hpass.trans ((passes_newline hrest hbreak).trans hv), ?_, ?_⟩
        · exact List.forall_mem_append.2 ⟨fun y hy => .inl (hblank y hy),
            List.forall_mem_cons.2 ⟨.inr hbreak, hgaps⟩⟩
        · exact List.forall_mem_cons.2 ⟨isGap_of_space_or_break (.inr hbreak), hbs⟩
      · cases h
        exact ⟨_, hpass, fun y hy => .inl (hblank y hy), nofun⟩
    · cases h
      exact ⟨_, hpass, fun y hy => .inl (hblank y hy), nofun⟩

/-- The lines of a block scalar, all of them set in. -/
theorem blockLines_read {start : Cursor} {folded : Bool} {indent : Nat} (hindent : 0 < indent)
    {fuel : Nat} : ∀ {c : Cursor} {p last bs text last' bs' : List Char}, start.Passes p c →
      Hanging p → (∀ b ∈ last, isGap b = true) → (∀ b ∈ bs, isGap b = true) →
      blockLines folded indent fuel last bs c = (text, last', bs', c') →
      ∃ v, c.Passes v c' ∧ Hanging (p ++ v) ∧ (solids text).Sublist (solids v) ∧
        (∀ b ∈ last', isGap b = true) ∧ ∀ b ∈ bs', isGap b = true := by
  induction fuel with
  | zero =>
    intro c p last bs text last' bs' hp hhang hlast hbs h
    cases h
    exact ⟨[], .refl _, by rwa [List.append_nil], List.Sublist.refl _, hlast, hbs⟩
  | succ fuel ih =>
    intro c p last bs text last' bs' hp hhang hlast hbs h
    rw [blockLines] at h
    split at h
    · cases h
      exact ⟨[], .refl _, by rwa [List.append_nil], List.Sublist.refl _, hlast, hbs⟩
    rename_i hcolumn
    simp only [not_or, not_not] at hcolumn
    obtain ⟨line, hline⟩ : ∃ line, (c.rest.takeWhile fun ch => !isBreak ch) = line := ⟨_, rfl⟩
    dsimp only at h
    rw [hline] at h
    obtain ⟨nextBreaks, widest, next, hblank⟩ : ∃ nextBreaks widest next,
        blankLines ((c.forward line.length).rest.length + 1) (some indent)
          (c.forward line.length).newline = (nextBreaks, widest, next) := ⟨_, _, _, rfl⟩
    rw [hblank] at h
    dsimp only at h
    obtain ⟨more, last'', bs'', after, hmore⟩ : ∃ more last'' bs'' after,
        blockLines folded indent fuel ((c.forward line.length).rest.take 1) nextBreaks next =
          (more, last'', bs'', after) := ⟨_, _, _, _, rfl⟩
    rw [hmore] at h
    simp only [Prod.mk.injEq] at h
    obtain ⟨htext, rfl, rfl, rfl⟩ := h
    -- the line, its end and the empty lines after it
    obtain ⟨hpass, hend, hplain, hbreak⟩ := passes_line hline
    obtain ⟨u, hu, hgaps, hnext⟩ := blankLines_read hblank
    have hlineGap : ∀ y ∈ (c.forward line.length).rest.take 1, isGap y = true :=
      fun y hy => isGap_of_space_or_break (.inr (hbreak y hy))
    have hhang' : Hanging (p ++ line) := by
      refine hanging_append_line hhang hplain fun _ => ?_
      by_contra hne
      rw [not_or, not_not] at hne
      have hzero := hp.column_eq_zero.2 ⟨hne.1, fun hnil => absurd hnil hne.2⟩
      omega
    have hspacing : ∀ y ∈ (c.forward line.length).rest.take 1 ++ u, y = ' ' ∨ isBreak y = true :=
      List.forall_mem_append.2 ⟨fun y hy => .inr (hbreak y hy), hgaps⟩
    obtain ⟨v, hv, hhang'', hsolids, hlast', hbs'⟩ := ih (hp.trans (hpass.trans (hend.trans hu)))
      (by rw [← List.append_assoc]; exact hanging_append_spacing hhang' hspacing) hlineGap hnext hmore
    refine ⟨_, hpass.trans ((hend.trans hu).trans hv), ?_, ?_, hlast', hbs'⟩
    · simpa using hhang''
    · have hjoint : ∃ joint, (∀ y ∈ joint, isGap y = true) ∧ text = bs ++ line ++ joint ++ more := by
        refine ⟨_, ?_, htext.symm⟩
        split_ifs
        · exact nofun
        · simp [isGap]
        · exact nofun
        · exact hlineGap
      obtain ⟨joint, hgap, rfl⟩ := hjoint
      simp only [solids_append, solids_of_gaps hbs, solids_of_gaps hgap, List.nil_append,
        List.append_nil]
      exact (List.Sublist.refl _).append (hsolids.trans (List.sublist_append_right _ _))

theorem isBreak_of_ofMark? {m : Chomping} (h : Chomping.ofMark? y = some m) : isBreak y = false := by
  rw [Chomping.ofMark?.eq_def] at h
  split at h
  · decide
  · decide
  · cases h

theorem of_indentation? {n : Nat} (h : indentation? y = some n) : isBreak y = false ∧ 0 < n := by
  rw [indentation?] at h
  split at h
  · rename_i hdigit
    obtain ⟨hdigit, hzero⟩ := hdigit
    obtain rfl := Option.some.inj h
    have hbreaks : ∀ z ∈ ['\n', '\r', '\u0085', '\u2028', '\u2029'], z.isDigit = false := by decide
    refine ⟨eq_false_of_ne_true fun hbreak => ?_, ?_⟩
    · rw [hbreaks y (isBreak_iff.1 hbreak)] at hdigit
      cases hdigit
    · rw [Char.isDigit, Bool.and_eq_true, decide_eq_true_eq, decide_eq_true_eq] at hdigit
      have hne : y.toNat ≠ 48 := fun h => hzero (Char.toNat_inj.1 h)
      have hle : 48 ≤ y.toNat := hdigit.1
      omega
  · cases h

/-- The characters of the header of a block scalar. -/
theorem blockHeader?_some {m : Chomping} {d : Option Nat} (h : blockHeader? cs = some (m, d, rest)) :
    ∃ head, cs = head ++ rest ∧ (∀ y ∈ head, isBreak y = false) ∧ ∀ n ∈ d, 0 < n := by
  cases cs with
  | nil =>
    cases h
    exact ⟨[], rfl, nofun, nofun⟩
  | cons a cs =>
    have hone (ha : isBreak a = false) : ∀ y ∈ [a], isBreak y = false := by simpa using ha
    have htwo {b : Char} (ha : isBreak a = false) (hb : isBreak b = false) :
        ∀ y ∈ [a, b], isBreak y = false := by simp [ha, hb]
    rw [blockHeader?] at h
    split at h
    · rename_i hmark
      have ha := isBreak_of_ofMark? hmark
      split at h
      · split at h
        · rename_i hdigit
          cases h
          exact ⟨[_, _], rfl, htwo ha (of_indentation? hdigit).1, by rintro n ⟨⟩; exact (of_indentation? hdigit).2⟩
        · cases h
          exact ⟨[_], rfl, hone ha, nofun⟩
      · cases h
        exact ⟨[_], rfl, hone ha, nofun⟩
    · rename_i hdigit
      obtain ⟨ha, hn⟩ := of_indentation? hdigit
      split at h
      · split at h
        · rename_i hmark
          cases h
          exact ⟨[_, _], rfl, htwo ha (isBreak_of_ofMark? hmark), by rintro n ⟨⟩; exact hn⟩
        · cases h
          exact ⟨[_], rfl, hone ha, by rintro n ⟨⟩; exact hn⟩
      · cases h
        exact ⟨[_], rfl, hone ha, by rintro n ⟨⟩; exact hn⟩
    · split at h
      · cases h
      · cases h
        exact ⟨[], rfl, nofun, nofun⟩

theorem blockStart_read {indent : Int} {depth : Option Nat} (hdepth : ∀ n ∈ depth, 0 < n)
    {column : Nat} {bs : List Char} (h : blockStart indent depth c = (column, bs, c')) :
    0 < column ∧ ∃ u, c.Passes u c' ∧ (∀ y ∈ u, y = ' ' ∨ isBreak y = true) ∧
      ∀ b ∈ bs, isGap b = true := by
  have hleast : 0 < (max 1 (indent + 1)).toNat := by omega
  rw [blockStart.eq_def] at h
  dsimp only at h
  split at h
  · rename_i d
    have hd := hdepth d rfl
    obtain ⟨bs', widest, next, hblank⟩ : ∃ bs' widest next, blankLines (c.rest.length + 1)
      (some ((max 1 (indent + 1)).toNat + d - 1)) c = (bs', widest, next) := ⟨_, _, _, rfl⟩
    rw [hblank] at h
    simp only [Prod.mk.injEq] at h
    obtain ⟨rfl, rfl, rfl⟩ := h
    exact ⟨by omega, blankLines_read hblank⟩
  · obtain ⟨bs', widest, next, hblank⟩ : ∃ bs' widest next,
      blankLines (c.rest.length + 1) none c = (bs', widest, next) := ⟨_, _, _, rfl⟩
    rw [hblank] at h
    simp only [Prod.mk.injEq] at h
    obtain ⟨rfl, rfl, rfl⟩ := h
    exact ⟨Nat.lt_of_lt_of_le hleast (Nat.le_max_left _ _), blankLines_read hblank⟩

/-- The lines of a block scalar are set in, and their characters are read in order. -/
theorem blockScalar?_read {folded : Bool} {indent : Int}
    (h : blockScalar? folded indent c = some (cs, c')) :
    ∃ v, c.Passes v c' ∧ Hanging v ∧ (solids cs).Sublist (solids v) := by
  simp only [blockScalar?, Option.bind_eq_bind, Option.bind_eq_some_iff] at h
  obtain ⟨⟨chomping, depth, rest⟩, hheader, h⟩ := h
  obtain ⟨head, hrest, hhead, hdepth⟩ := blockHeader?_some hheader
  obtain ⟨line, hline⟩ : ∃ line, (rest.takeWhile fun ch => !isBreak ch) = line := ⟨_, rfl⟩
  dsimp only at h
  rw [hline] at h
  split at h
  · cases h
  obtain ⟨start, hstart⟩ : ∃ start, start = ((c.jumpTo rest).forward line.length).newline := ⟨_, rfl⟩
  rw [← hstart] at h
  obtain ⟨column, bs, next, hbegin⟩ : ∃ column bs next,
    blockStart indent depth start = (column, bs, next) := ⟨_, _, _, rfl⟩
  rw [hbegin] at h
  obtain ⟨body, last, bs', after, hbody⟩ : ∃ body last bs' after,
    blockLines folded column (start.rest.length + 1) [] bs next = (body, last, bs', after) :=
    ⟨_, _, _, _, rfl⟩
  rw [hbody] at h
  obtain ⟨rfl, rfl⟩ := Prod.mk.inj (Option.some.inj h)
  -- the line of the indicator
  have hjump := passes_jumpTo hrest hhead
  have hrest' : (c.jumpTo rest).rest = rest := List.append_cancel_left (hjump.rest_eq.symm.trans hrest)
  rw [← hrest'] at hline
  obtain ⟨hpass, hnewline, hplain, hbreak⟩ := passes_line hline
  rw [← hstart] at hnewline
  -- the lines after it
  obtain ⟨hcolumn, u, hu, hgaps, hbs⟩ := blockStart_read hdepth hbegin
  have hstart' := hjump.trans (hpass.trans (hnewline.trans hu))
  have hhang : Hanging (head ++ (line ++ (((c.jumpTo rest).forward line.length).rest.take 1 ++ u))) := by
    rw [← List.append_assoc]
    refine hanging_append_spacing ?_ (List.forall_mem_append.2 ⟨fun y hy => .inr (hbreak y hy), hgaps⟩)
    exact hanging_append_line (u := []) .nil (List.forall_mem_append.2 ⟨hhead, hplain⟩) fun _ => .inr rfl
  obtain ⟨v, hv, hhang', hsolids, hlast, hbs'⟩ :=
    blockLines_read hcolumn hstart' hhang (fun _ hb => absurd hb List.not_mem_nil) hbs hbody
  refine ⟨_, (hstart'.trans hv).fresh true, hhang', ?_⟩
  have hending {ending : List Char} (hgap : ∀ y ∈ ending, isGap y = true) :
      (solids (body ++ ending)).Sublist (solids (head ++ (line ++
        (((c.jumpTo rest).forward line.length).rest.take 1 ++ u)) ++ v)) := by
    rw [solids_append, solids_append, solids_of_gaps hgap, List.append_nil]
    exact hsolids.trans (List.sublist_append_right _ _)
  cases chomping with
  | clip => exact hending hlast
  | strip => exact hending fun _ hb => absurd hb List.not_mem_nil
  | keep => exact hending (List.forall_mem_append.2 ⟨hlast, hbs'⟩)

/-! ## Keys -/

/-- A colon stands on the line of its key. -/
theorem afterColon?_passes {line : Nat} (h : afterColon? line c = some c') :
    ∃ u, c.Passes (u ++ [':']) c' ∧ (∀ y ∈ u, y = ' ') ∧ c'.line = line := by
  obtain ⟨u, hu, hblank⟩ := passes_spaces (c := c) (Nat.le_refl _)
  rw [afterColon?] at h
  split at h
  · rename_i rest hrest
    split at h
    · rename_i hline
      cases h
      rw [Bool.and_eq_true, decide_eq_true_eq] at hline
      exact ⟨u, hu.trans (passes_one hrest (by decide)), hblank, hline.1⟩
    · cases h
  · cases h

end DeclGraph.Yaml
