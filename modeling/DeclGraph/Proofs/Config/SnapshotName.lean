/-
  Names of snapshots that come back.

  A name is written as it is, whatever it consists of.  It may be read as no text, be cut short, or go
  on with the lines after it, and it may have lines that are read as further fields.  None of this makes
  a name come back that does not stand for itself: what is read weighs no more than what stands there.

  * `furtherText_start`: where a line with content begins after the name;
  * `Placed`: where the field is read that holds the name, and what is passed before;
  * `starts_le_of_single` and `total_le_of_double`: a name that goes on in quotes;
  * `sameValues_load_iff`: which names come back.
-/
import DeclGraph.Proofs.Config.UserFile
import DeclGraph.Proofs.Path
import DeclGraph.Proofs.Yaml.LineStart

namespace DeclGraph.UserConfig

open Config Yaml
open Json hiding readText readItems

variable {u : UserConfig} {m z rest v cs : List Char} {y : Char} {ys : List Char}

/-! ## Weights -/

/-- What is no blank weighs one, and so does the mark of a text. -/
def solidWeight : Weight where
  of y := if isGap y then 0 else 1
  mark := 1
  of_gap y hy := if_pos hy
  of_le y := by
    have hone : isGap '\\' = false := by decide
    rw [hone]
    split <;> decide
  mark_le := by decide

/-- The letter of the key of the name that the lines after the name do not have. -/
def letterWeight : Weight where
  of y := if y = 'h' ∨ y = '\\' then 1 else 0
  mark := 0
  of_gap y hy := by
    refine if_neg ?_
    rintro (rfl | rfl) <;> exact absurd hy (by decide)
  of_le y := by
    rw [if_pos (Or.inr rfl)]
    split <;> decide
  mark_le := by decide

/-! ## The lines after the name -/

/-- What stands between the name and the arguments. -/
def frontText (l : LogLevel) : List Char :=
  levelRemarks ++ ((fieldLine "log_level" l.name ({} : LoggingConfig).level.name).toList ++
    '\n' :: argsRemarks)

/-- What stands between the name and the first argument. -/
def openText (l : LogLevel) : List Char := frontText l ++ "clang_args: [".toList

/-- Between the name and the arguments no line of a text begins, and there are neither quotes nor the
    letter. -/
theorem openText_clear (l : LogLevel) : keptStarts true ('\n' :: openText l) = 0 ∧
    ∀ y ∈ openText l, y ∉ ['\'', '"', 'h', '\\'] := by
  simp only [openText, frontText, levelRemarks, argsRemarks, linesText, List.flatMap_cons,
    List.flatMap_nil, String.reduceToList]
  cases l <;> decide +kernel

theorem getLast?_openText (l : LogLevel) : (openText l).getLast? = some '[' := by
  rw [openText, List.getLast?_append_of_ne_nil _ (by decide)]
  decide

theorem total_openText (l : LogLevel) : letterWeight.total (openText l) = 0 := by
  refine Weight.total_eq_zero fun y hy => if_neg ?_
  have hnot := (openText_clear l).2 y hy
  rintro (rfl | rfl) <;> exact hnot (by simp)

theorem furtherText_eq (u : UserConfig) :
    u.furtherText = frontText u.logLevelOrDefault ++ (u.argsLines ++ ['\n']) := by
  rw [furtherText, frontText, levelLine]
  simp

theorem argsLines_cases (u : UserConfig) :
    u.clangArgsOrDefault = [] ∧ u.argsLines = "# clang_args: []".toList ∨
      ∃ ws, u.argsLines = "clang_args: [".toList ++ (ws ++ [']']) ∧ ItemsForm u.clangArgsOrDefault ws := by
  rw [argsLines]
  by_cases hargs : u.clangArgsOrDefault = []
  · exact .inl ⟨hargs, if_pos hargs⟩
  · obtain ⟨x, xs, hcons⟩ := List.exists_cons_of_ne_nil hargs
    obtain ⟨ws, hlist, hws⟩ := flowList_eq "clang_args" x xs
    refine .inr ⟨ws, ?_, by rwa [hcons]⟩
    rw [if_neg hargs, hcons, hlist, String.toList_ofList]
    rfl

theorem hung_argsLines (u : UserConfig) : Hung u.argsLines := by
  rcases u.argsLines_cases with ⟨-, h⟩ | ⟨ws, h, hws⟩
  · rw [h]
    exact (calm_of_line (by decide)).toHung
  · rw [h]
    exact (calm_of_line (by decide)).toHung.append (hws.hung.append (calm_of_line (by decide)).toHung)

theorem levelLine_cases (u : UserConfig) : IsRemark u.levelLine ∨
    ∃ rest, u.levelLine = "log_level".toList ++ ':' :: ' ' :: rest := by
  rw [levelLine]
  by_cases hdefault : u.logLevelOrDefault.name = ({} : LoggingConfig).level.name
  · rw [hdefault]
    exact .inl (by decide)
  · exact .inr ⟨_, toList_fieldLine hdefault⟩

theorem calm_levelLine (u : UserConfig) : Calm u.levelLine := by
  have hlevels (l : LogLevel) :
      ∀ y ∈ (fieldLine "log_level" l.name ({} : LoggingConfig).level.name).toList, isBreak y = false := by
    cases l <;> decide
  exact calm_of_line (hlevels u.logLevelOrDefault)

/-- **After the name a line with content begins with the key of another field.** -/
theorem furtherText_start (hm : EndsLine m) (hy : isGap y = false) (hhash : y ≠ '#')
    (h : u.furtherText = m ++ y :: ys) : u.argsLines.length < (y :: ys).length ∧
      ∃ key ∈ ["log_level", "clang_args"], ∃ rest, y :: ys = key.toList ++ ':' :: ' ' :: rest := by
  obtain ⟨m₁, hm₁, h₁⟩ := remarks_level.line_start hy hhash hm h.symm
  rcases line_start u.calm_levelLine.toHung hm₁ hy h₁.symm with rfl | ⟨m₂, hm₂, h₂⟩
  · rw [List.nil_append] at h₁
    refine ⟨by rw [← h₁]; simp; omega, "log_level", by simp, ?_⟩
    rcases u.levelLine_cases with hremark | ⟨rest, hline⟩
    · exact absurd h₁.symm (hremark.head_ne hy hhash)
    · exact ⟨_, by rw [← h₁, hline, List.append_assoc]; rfl⟩
  · obtain ⟨m₃, hm₃, h₃⟩ := remarks_args.line_start hy hhash hm₂ h₂.symm
    rcases line_start u.hung_argsLines hm₃ hy h₃.symm with rfl | ⟨m₄, hm₄, h₄⟩
    · rw [List.nil_append] at h₃
      refine ⟨by rw [← h₃]; simp, "clang_args", by simp, ?_⟩
      rcases u.argsLines_cases with ⟨-, hline⟩ | ⟨ws, hline, -⟩
      · rw [hline] at h₃
        exact absurd h₃.symm (IsRemark.head_ne (by decide) hy hhash)
      · exact ⟨_, by rw [← h₃, hline, List.append_assoc]; rfl⟩
    · exact absurd h₄.symm (by simp)

/-! ## Names that go on -/

/-- A part of the lines after the name that has a quote goes on into the arguments. -/
theorem exists_args_of_quote {quote : Char} (hquote : quote ∈ ['\'', '"']) (hz : quote ∈ z)
    (h : u.furtherText = z ++ rest) : rest.length ≤ u.argsLines.length ∧
      ∃ ws, u.argsLines = "clang_args: [".toList ++ (ws ++ [']']) ∧ ItemsForm u.clangArgsOrDefault ws := by
  have hfront : ∀ q ∈ ['\'', '"'], q ∉ frontText u.logLevelOrDefault := fun q hq hmem =>
    (openText_clear u.logLevelOrDefault).2 q (List.mem_append_left _ hmem) (List.mem_append_left _ hq)
  have hremark : ∀ q ∈ ['\'', '"'], q ∉ "# clang_args: []".toList ++ ['\n'] := by decide
  rw [furtherText_eq] at h
  rcases List.append_eq_append_iff.1 h with ⟨z', rfl, hargs⟩ | ⟨z', hfrontEq, -⟩
  · have hz' : quote ∈ z' := (List.mem_append.1 hz).resolve_left (hfront quote hquote)
    have hlength := congrArg List.length hargs
    have hpos := List.length_pos_of_mem hz'
    simp only [List.length_append, List.length_singleton] at hlength
    refine ⟨by omega, u.argsLines_cases.resolve_left ?_⟩
    rintro ⟨-, hline⟩
    rw [hline] at hargs
    exact hremark quote hquote (by rw [hargs]; exact List.mem_append_left rest hz')
  · exact absurd (by rw [hfrontEq]; exact List.mem_append_left z' hz) (hfront quote hquote)

theorem furtherText_of_args {ws : List Char} (h : u.argsLines = "clang_args: [".toList ++ (ws ++ [']'])) :
    u.furtherText = openText u.logLevelOrDefault ++ (ws ++ [']', '\n']) := by
  rw [furtherText_eq, h, openText]
  simp

/-- The last character is a quote, and so it is one of the lines after the name. -/
theorem mem_of_getLast? {quote : Char} (hquote : quote ≠ '\n')
    (h : (v ++ '\n' :: z).getLast? = some quote) : quote ∈ z := by
  rw [List.getLast?_append_of_ne_nil _ (List.cons_ne_nil _ _), List.getLast?_cons] at h
  cases hz : z.getLast? with
  | none =>
    rw [hz] at h
    exact absurd (Option.some.inj h).symm hquote
  | some y =>
    rw [hz] at h
    obtain rfl := Option.some.inj h
    exact List.mem_of_getLast? hz

theorem getLast?_ne_of_openText {P : List Char} {q : Char} (hq : q ≠ '[') (hP : P.getLast? ≠ some q)
    (l : LogLevel) (v : List Char) : (v ++ '\n' :: (openText l ++ P)).getLast? ≠ some q := by
  rw [List.getLast?_append_of_ne_nil _ (List.cons_ne_nil _ _), List.getLast?_cons, List.getLast?_append,
    getLast?_openText]
  cases hlast : P.getLast? with
  | none => exact fun h => hq (Option.some.inj h).symm
  | some y => rwa [hlast] at hP

/-- A part of a text is in front of what is longer. -/
theorem prefix_of_length {w : List Char} (h : z ++ rest = w ++ m)
    (hle : (v ++ '\n' :: z).length ≤ (v ++ '\n' :: w).length) : z <+: w := by
  refine List.prefix_of_prefix_length_le (List.prefix_append z rest) ?_ (by simpa using hle)
  rw [h]
  exact List.prefix_append w m

/-- **A name that goes on in single quotes has no more lines than the part of it in the quotes.** -/
theorem starts_le_of_single (hread : SingleRead (v ++ '\n' :: z) cs) (h : u.furtherText = z ++ rest) :
    starts cs ≤ starts v := by
  have hz := mem_of_getLast? (by decide) hread.getLast?
  obtain ⟨-, ws, hargs, hws⟩ := exists_args_of_quote (by simp) hz h
  rw [furtherText_of_args hargs] at h
  obtain ⟨P, Q, rfl, hP, hQ⟩ := hws.exists_single
  -- it ends with the quotes before some argument, or with the line of the arguments
  obtain ⟨R, hR, hkept⟩ : ∃ R, z <+: openText u.logLevelOrDefault ++ R ∧ keptStarts false R = 0 := by
    rcases hQ with rfl | ⟨hlast, k, x, Q, rfl, hx⟩
    · refine ⟨P ++ [']', '\n'], ⟨rest, by simpa using h.symm⟩, ?_⟩
      have hle := keptStarts_append hP.last (fun _ _ _ => rfl) [']', '\n']
        (fun _ _ => rfl : P = [] → false = true → true = true)
      rw [hP.kept] at hle
      exact Nat.le_zero.1 hle
    · have hquotes : Calm (List.replicate (2 * k + 1) '\'') :=
        calm_of_line (isBreak_replicate _ (by decide))
      refine ⟨P ++ List.replicate (2 * k + 1) '\'', ?_, (hP.append hquotes (.inr ?_)).kept⟩
      · have hline : (v ++ '\n' :: z) ++ rest = (v ++ '\n' :: (openText u.logLevelOrDefault ++ P)) ++
            (List.replicate (2 * k + 1) '\'' ++ x :: (Q ++ [']', '\n'])) := by simp [← h]
        have hle := hread.length_le hx hline (getLast?_ne_of_openText (by decide) hlast _ v)
        have hsplit : z ++ rest = (openText u.logLevelOrDefault ++
            (P ++ List.replicate (2 * k + 1) '\'')) ++ x :: (Q ++ [']', '\n']) := by simp [← h]
        refine prefix_of_length (v := v) hsplit (Nat.le_trans hle ?_)
        simp only [List.length_append, List.length_cons, List.length_replicate]
        omega
      · rw [List.replicate_succ]
        rintro y ⟨⟩
        decide
  obtain ⟨t, ht⟩ := hR
  have hstarts := hread.starts_le
  have hsplit := keptStarts_append_le (v := '\n' :: z) rfl false v
  have hfront := keptStarts_append_left true ('\n' :: z) t
  have hopen : keptStarts true ('\n' :: openText u.logLevelOrDefault ++ R) ≤
      keptStarts true ('\n' :: openText u.logLevelOrDefault) + keptStarts false R :=
    keptStarts_append (by rw [List.getLast?_cons, getLast?_openText]; decide)
      (by rw [List.getLast?_cons, getLast?_openText]; decide) R nofun
  rw [List.cons_append, ht] at hfront
  rw [List.cons_append, (openText_clear _).1, hkept] at hopen
  omega

/-- **A name that goes on in double quotes takes no more of the letter than there is in the
    arguments.** -/
theorem total_le_of_double (hread : DoubleRead (v ++ '\n' :: z) cs) (h : u.furtherText = z ++ rest) :
    letterWeight.total z ≤ letterWeight.texts u.clangArgsOrDefault := by
  have hz := mem_of_getLast? (by decide) hread.getLast?
  obtain ⟨-, ws, hargs, hws⟩ := exists_args_of_quote (by simp) hz h
  rw [furtherText_of_args hargs] at h
  obtain ⟨P, Q, rfl, hP, hQ⟩ := hws.exists_double (W := letterWeight) (by decide) (by decide)
  -- it ends with the quote before some argument, or with the line of the arguments
  obtain ⟨R, hR, htotal⟩ : ∃ R, z <+: openText u.logLevelOrDefault ++ R ∧
      letterWeight.total R = letterWeight.total P := by
    rcases hQ with rfl | ⟨hlast, Q, rfl⟩
    · exact ⟨P ++ [']', '\n'], ⟨rest, by simpa using h.symm⟩, by rw [Weight.total_append]; rfl⟩
    · refine ⟨P ++ ['"'], ?_, by rw [Weight.total_append]; rfl⟩
      have hline : (v ++ '\n' :: z) ++ rest = (v ++ '\n' :: (openText u.logLevelOrDefault ++ P)) ++
          '"' :: (Q ++ [']', '\n']) := by simp [← h]
      have hle := hread.length_le hline (getLast?_ne_of_openText (by decide) hlast _ v)
      have hsplit : z ++ rest =
          (openText u.logLevelOrDefault ++ (P ++ ['"'])) ++ (Q ++ [']', '\n']) := by simp [← h]
      refine prefix_of_length (v := v) hsplit (Nat.le_trans hle ?_)
      simp only [List.length_append, List.length_cons, List.length_nil]
      omega
  have hle := Weight.total_le_of_sublist (W := letterWeight) hR.sublist
  rw [Weight.total_append, total_openText, htotal, Nat.zero_add] at hle
  exact Nat.le_trans hle hP

/-! ## The field of the name -/

theorem mem_membersToJson {ns : List (Node × Node)} {e : String × Json} (h : e ∈ Node.membersToJson ns) :
    ∃ n ∈ ns, n.1.key = e.1 ∧ n.2.toJson = e.2 := by
  induction ns with
  | nil => cases h
  | cons n ns ih =>
    rcases List.mem_cons.1 h with rfl | h
    · exact ⟨n, List.mem_cons_self, rfl, rfl⟩
    · obtain ⟨n', hn', heq⟩ := ih h
      exact ⟨n', List.mem_cons_of_mem n hn', heq⟩

/-- A member of a mapping without flaws is one of its nodes. -/
theorem exists_of_member? {ns : List (Node × Node)} {ms : List (String × Json)} {key : String} {j : Json}
    (hvalue : (Node.mapping ns).value = .ok (.obj ms)) (h : Json.member? key ms = some j) :
    ∃ n ∈ ns, n.1.key = key ∧ n.2.toJson = j := by
  have hms : ms = (Table.ofList (Node.membersToJson ns)).entries := by
    rw [Node.value] at hvalue
    split at hvalue
    · cases hvalue
    · rw [Table.entries_ofList]
      exact (Json.obj.inj (Except.ok.inj hvalue)).symm
  rw [hms] at h
  exact mem_membersToJson
    (Table.mem_of_mem_ofList ((Table.lookup_eq_some_iff_mem (Table.nodup _)).1 h))

/-- A key weighs no less than its text. -/
theorem total_key_le {k : Node} {key : String} (hkey : k.key = key) (htext : k.isTextKey = true)
    (W : Weight) : W.total key.toList ≤ W.node k := by
  cases k with
  | text s =>
    obtain rfl : s = key := hkey
    exact Nat.le_add_right _ _
  | plain s =>
    have hs : s = key := by
      rw [Node.isTextKey, Bool.or_eq_true] at htext
      rcases htext with htext | heq
      · rwa [Node.key, resolve_of_isText htext] at hkey
      · obtain rfl : s = "=" := by simpa using heq
        rw [← hkey]
        decide +kernel
    rw [hs]
    exact Nat.le_refl _
  | list items => cases htext
  | mapping members => cases htext

/-- Where the value of the name is read: after a part of the text that weighs as much as the fields
    before it and the key, and in a line of its own, unless it is the first value. -/
structure Placed (F text : List Char) (first colon : Cursor) (earlier : List (Node × Node))
    (A w : List Char) : Prop where
  passes : first.Passes A colon
  rest_eq : colon.rest = w ++ '\n' :: F
  text_eq : text = A ++ w
  later : earlier ≠ [] → starts w + 1 ≤ starts text ∧ ∀ W : Weight,
    W.items (earlier.map Prod.snd) + W.total "snapshot_name".toList ≤ W.total A

/-- A line that begins within a text is one more. -/
theorem succ_starts_le {A w : List Char} (hA : EndsLine A) (hne : A ≠ []) (hw : beginsLine w = true) :
    starts w + 1 ≤ starts (A ++ w) := by
  obtain ⟨A, b, rfl⟩ := (List.eq_nil_or_concat' A).resolve_left hne
  have hb : isBreak b = true := hA b (by simp)
  have hle := starts_append A (b :: w)
  have hone : starts (b :: w) = 1 + starts w := by
    rw [starts, hb, hw]
    rfl
  rw [List.append_assoc, List.singleton_append]
  omega

/-- **The field of the name stands before the end of the name.** -/
theorem exists_placed {first : Cursor} {text : List Char} {key k x : Node}
    {ms₁ ms₂ : List (Node × Node)} (hfirst : first.Before (text ++ '\n' :: u.furtherText))
    (h : Entries key first (ms₁ ++ (k, x) :: ms₂)) (hkey : k.key = "snapshot_name")
    (htext : k.isTextKey = true) : ∃ colon A w,
      Placed u.furtherText text first colon ms₁ A w ∧ Entries k colon ((k, x) :: ms₂) := by
  rcases h.exists_place with ⟨rfl, rfl⟩ | ⟨start, colon, hcosts, hstart, hentries⟩
  · exact ⟨first, [], text, ⟨.refl first, hfirst.rest_eq, rfl, fun h => absurd rfl h⟩, h⟩
  obtain ⟨A, hA, -⟩ := hcosts letterWeight
  obtain ⟨y, ys, hrest, hy, hhash⟩ := hstart.exists_head
  obtain ⟨hends, hcolumn⟩ := hA.column_eq_zero.1 hstart.column_eq
  rcases append_or (hA.rest_eq.symm.trans hfirst.rest_eq) with ⟨w, rfl, hbegin⟩ | ⟨m, rfl, hm⟩
  · obtain ⟨B, hB, hline, hnode⟩ := hstart.passes
    obtain ⟨w, rfl, hcolon⟩ := exists_append_of_line hline (hB.rest_eq.symm.trans hbegin)
    refine ⟨colon, A ++ B, w, ⟨hA.trans hB, hcolon, (List.append_assoc A B w).symm, fun _ => ⟨?_, fun W => ?_⟩⟩,
      hentries⟩
    · have hne : A ≠ [] := fun hnil => hfirst.column_pos.ne' (hcolumn hnil)
      have hbegins : beginsLine (B ++ w) = true := by
        rw [hrest] at hbegin
        cases hBw : B ++ w with
        | nil =>
          rw [hBw] at hbegin
          obtain ⟨rfl, -⟩ := List.cons.inj hbegin
          exact absurd hy (by decide)
        | cons z zs =>
          rw [hBw] at hbegin
          obtain ⟨rfl, -⟩ := List.cons.inj hbegin
          simpa [beginsLine, isBreak_of_isGap hy] using hhash
      have hle := succ_starts_le hends hne hbegins
      have hle' := starts_append B w
      omega
    · obtain ⟨A', hA', hle⟩ := hcosts W
      rw [hA'.unique hA] at hle
      rw [W.total_append]
      exact Nat.add_le_add hle (Nat.le_trans (total_key_le hkey htext W) (hnode W))
  · -- no line after the name begins with its key
    rw [hrest] at hm
    obtain ⟨-, name, hname, rest, heq⟩ := furtherText_start (endsLine_of_append hends) hy hhash hm
    obtain ⟨hisName, hisText⟩ := isName_key name (List.mem_cons_of_mem _ hname)
    rw [hstart.eq_of_name hisName (hrest.trans heq), Node.key, resolve_of_isText hisText] at hkey
    obtain rfl : name = "snapshot_name" := hkey
    exact absurd hname (by decide)

/-- No further field is read after a name that goes on into the arguments. -/
theorem not_keyAt_of_rest {first start after colon : Cursor} {k x : Node} {text : List Char}
    {fuel depth : Nat} (hfirst : first.rest = text ++ '\n' :: u.furtherText) (hstart : first.Passes m start)
    (hvalue : blockValue 0 fuel depth start.skip = .ok (x, after)) (hz : u.furtherText = z ++ after.rest)
    (hle : after.rest.length ≤ u.argsLines.length) : ¬ KeyAt after.skip k colon := by
  intro hkey
  obtain ⟨y, ys, hrest, hy, hhash⟩ := hkey.exists_head
  obtain ⟨q, hq⟩ := passes_skip after
  obtain ⟨B, hB, -⟩ := ((letterWeight.costs_skip start).trans
    ((letterWeight.blockCosts fuel).value hvalue)).skip
  have hpass := hstart.trans hB
  have hfront : m ++ B = text ++ '\n' :: (z ++ q) := by
    refine List.append_cancel_right (hpass.rest_eq.symm.trans (hfirst.trans ?_))
    rw [hz, hq.rest_eq]
    simp
  have hends := (hpass.column_eq_zero.1 hkey.column_eq).1
  rw [hfront] at hends
  have hlines : u.furtherText = (z ++ q) ++ y :: ys := by
    rw [hz, hq.rest_eq, hrest, List.append_assoc]
  have hlt := (furtherText_start (endsLine_of_append hends) hy hhash hlines).1
  have hlength := congrArg List.length hq.rest_eq
  rw [hrest, List.length_append] at hlength
  omega

theorem total_le_of_isScalar {s : String} {x : Node} (h : x.IsScalar s) (W : Weight) :
    W.total s.toList ≤ W.node x := by
  cases h with
  | text => exact Nat.le_add_right _ _
  | plain _ => exact Nat.le_refl _

/-- Texts weigh no more than the list that is read as them. -/
theorem texts_le_node {ss : List String} {x : Node} (h : x.toJson = .ofTexts ss) (W : Weight) :
    W.texts ss ≤ W.node x := by
  obtain ⟨items, rfl, hitems⟩ := Node.eq_list_of_toJson h
  rw [Weight.node]
  clear h
  induction items generalizing ss with
  | nil =>
    obtain rfl := List.map_eq_nil_iff.1 hitems.symm
    exact Nat.le_refl 0
  | cons y items ih =>
    obtain ⟨s, ss, rfl, hy, hmore⟩ := List.map_eq_cons_iff.1 hitems.symm
    rw [Weight.texts, Weight.items]
    exact Nat.add_le_add (total_le_of_isScalar (Node.isScalar_of_toJson hy.symm) W) (ih hmore.symm)

theorem node_le_items {x : Node} {xs : List Node} (h : x ∈ xs) (W : Weight) : W.node x ≤ W.items xs := by
  induction xs with
  | nil => cases h
  | cons y xs ih =>
    rw [Weight.items]
    rcases List.mem_cons.1 h with rfl | h
    · exact Nat.le_add_right _ _
    · exact Nat.le_trans (ih h) (Nat.le_add_left _ _)

/-! ## Reading the name -/

theorem all_allowed_of_compose {depth : Nat} {s : String} {n : Node} (h : Yaml.compose depth s = .ok n) :
    (normalized s).all isAllowed = true := by
  rw [Yaml.compose] at h
  dsimp only at h
  split at h
  · cases h
  · rename_i hall
    simpa using hall

/-- The text that is read, from the name on. -/
theorem normalized_toText_of_ne (hdefault : u.snapshotNameOrDefault ≠ ({} : GraphConfig).snapshotName) :
    ∃ w, SameLines u.snapshotNameOrDefault.toList w ∧ normalized u.toText =
      nameRemarks ++ ("snapshot_name".toList ++ ':' :: ' ' :: (w ++ '\n' :: u.furtherText)) := by
  obtain ⟨w, hw, hlines⟩ := exists_go u.furtherText u.snapshotNameOrDefault.toList
  have hlegible {v : List Char} (hv : Legible v) : ∀ y ∈ v, y ≠ '\r' ∧ y ≠ '\u0085' := by
    have hnot : ∀ z ∈ ['\r', '\u0085'], ¬ (z = '\n' ∨ Printable z) := by decide
    exact fun y hy => ⟨fun h => hnot _ (by simp) (h ▸ hv y hy), fun h => hnot _ (by simp) (h ▸ hv y hy)⟩
  have hfront : Legible (nameRemarks ++ ("snapshot_name".toList ++ [':', ' '])) := by decide +kernel
  have htext : u.toText.toList = (nameRemarks ++ ("snapshot_name".toList ++ [':', ' '])) ++
      (u.snapshotNameOrDefault.toList ++ '\n' :: u.furtherText) := by
    rw [toList_toText, nameLine, toList_fieldLine hdefault]
    simp
  refine ⟨w, hlines, ?_⟩
  rw [go_eq_self (hlegible (legible_furtherText u))] at hw
  have hgo : normalized.go u.toText.toList = nameRemarks ++ ("snapshot_name".toList ++
      ':' :: ' ' :: (w ++ '\n' :: u.furtherText)) := by
    rw [htext, go_append (hlegible hfront), hw]
    simp
  rw [normalized, hgo]
  rfl

/-- The members that are read from the file, from the value of the name on. -/
theorem exists_entries {depth : Nat} {n : Node}
    (hdefault : u.snapshotNameOrDefault ≠ ({} : GraphConfig).snapshotName)
    (hcompose : Yaml.compose (depth + 1) u.toText = .ok n) : ∃ first w ns, n = .mapping ns ∧
      SameLines u.snapshotNameOrDefault.toList w ∧ (∀ y ∈ w, isAllowed y = true) ∧
      first.Before (' ' :: w ++ '\n' :: u.furtherText) ∧ Entries (.plain "snapshot_name") first ns := by
  obtain ⟨w, hlines, hnormal⟩ := normalized_toText_of_ne hdefault
  have hallowed := all_allowed_of_compose hcompose
  obtain ⟨first, fuel, hfirst, -, -, hread⟩ :=
    compose_entry remarks_name (isName_key "snapshot_name" (by simp)).1 hnormal hallowed depth
  rw [hread] at hcompose
  split at hcompose
  · rename_i ns c hmembers
    split at hcompose
    · cases hcompose
      refine ⟨first, w, ns, rfl, hlines, fun y hy => ?_, hfirst, entries_of_blockMembers hmembers⟩
      rw [hnormal, List.all_eq_true] at hallowed
      exact hallowed y (by simp [hy])
    · cases hcompose
  · cases hcompose

/-- The fields that a file is read as are read from some of its members. -/
theorem exists_member {ns : List (Node × Node)} {ms : List (String × Json)} {v : UserConfig}
    (hvalue : (Node.mapping ns).value = .ok (.obj ms)) (hms : ofMembers ms = .ok v) :
    (∀ name ∈ v.snapshotName, ∃ n ∈ ns, n.1.key = "snapshot_name" ∧ n.2.toJson = .str name) ∧
      ∀ args ∈ v.clangArgs, ∃ n ∈ ns, n.1.key = "clang_args" ∧ n.2.toJson = .ofTexts args := by
  simp only [ofMembers, bind_eq_ok] at hms
  obtain ⟨name, hname, level, -, args, hargs, hv⟩ := hms
  obtain rfl := Except.ok.inj hv
  have hname : Json.member? "snapshot_name" ms = name.map .str :=
    member?_of_setField (fun _ _ _ => mapError_scalar.trans readText_eq_ok) hname
  have hargs : Json.member? "clang_args" ms = args.map .ofTexts :=
    member?_of_setField (fun _ _ _ => list_readText_eq_ok) hargs
  constructor
  · rintro n (rfl : name = some n)
    exact exists_of_member? hvalue hname
  · rintro xs (rfl : args = some xs)
    exact exists_of_member? hvalue hargs

/-- **A name that is read from the file stands for itself, if the arguments are read as well.** -/
theorem plainLine_of_entries {first : Cursor} {w : List Char} {ns : List (Node × Node)} {k x : Node}
    (hlines : SameLines u.snapshotNameOrDefault.toList w) (hallowed : ∀ y ∈ w, isAllowed y = true)
    (hfirst : first.Before (' ' :: w ++ '\n' :: u.furtherText))
    (hentries : Entries (.plain "snapshot_name") first ns) (hmem : (k, x) ∈ ns)
    (hkey : k.key = "snapshot_name") (hkeyText : k.isTextKey = true)
    (hx : x.toJson = .str u.snapshotNameOrDefault)
    (hargs : u.clangArgsOrDefault ≠ [] → ∃ n ∈ ns, n.2.toJson = .ofTexts u.clangArgsOrDefault) :
    PlainLine u.snapshotNameOrDefault := by
  obtain ⟨earlier, later, rfl⟩ := List.append_of_mem hmem
  obtain ⟨colon, A, w', hplaced, hvalues⟩ := exists_placed hfirst hentries hkey hkeyText
  obtain ⟨fuel, depth, after, hread, hmore⟩ := hvalues.value
  have htotal (W : Weight) : W.total u.snapshotNameOrDefault.toList = W.total A + W.total w' := by
    rw [← hlines.total_eq, ← W.total_append, ← hplaced.text_eq, W.total_cons, W.of_gap ' ' (by decide),
      Nat.zero_add]
  -- a name that goes on in quotes takes the arguments, and so they have been read before
  have hearlier {z : List Char} (hF : u.furtherText = z ++ after.rest) {quote : Char}
      (hquote : quote ∈ ['\'', '"']) (hz : quote ∈ z) :
      ∃ n ∈ earlier, n.2.toJson = .ofTexts u.clangArgsOrDefault := by
    obtain ⟨hle, ws, -, hws⟩ := exists_args_of_quote hquote hz hF
    obtain rfl := hmore.resolve_right fun ⟨k', colon', hnext⟩ =>
      not_keyAt_of_rest hfirst.rest_eq hplaced.passes hread hF hle hnext
    obtain ⟨n, hn, hjson⟩ := hargs hws.ne_nil
    rcases List.mem_append.1 hn with hn | hn
    · exact ⟨n, hn, hjson⟩
    · obtain rfl := List.mem_singleton.1 hn
      cases hx.symm.trans hjson
  cases blockValue_scalar (document_furtherText u) hplaced.rest_eq hread (Node.isScalar_of_toJson hx) with
  | text hle =>
    have hle := hle solidWeight
    have heq := htotal solidWeight
    have hmark : solidWeight.mark = 1 := rfl
    omega
  | @plain p v r start htext hw hp hrest hstarts hplain hread =>
    refine plainLine_of_plain (document_furtherText u).flush hlines ?_ (hplaced.passes.trans hp) hrest
      hstarts hplain hread htext hallowed
    rw [hplaced.text_eq, hw, List.append_assoc]
  | @single p v z hw hF hread =>
    obtain ⟨n, hn, -⟩ := hearlier hF (by simp) (mem_of_getLast? (by decide) hread.getLast?)
    have hlater := (hplaced.later (List.ne_nil_of_mem hn)).1
    have hle := starts_le_of_single hread hF
    have hle' := starts_append (p ++ ['\'']) v
    rw [List.append_assoc, List.singleton_append, ← hw] at hle'
    rw [starts_cons (by decide), hlines.starts_eq] at hlater
    omega
  | @double p v z hw hF hread =>
    obtain ⟨n, hn, hjson⟩ := hearlier hF (by simp) (mem_of_getLast? (by decide) hread.getLast?)
    have hlater := (hplaced.later (List.ne_nil_of_mem hn)).2 letterWeight
    have hargs := Nat.le_trans (texts_le_node hjson letterWeight)
      (node_le_items (List.mem_map_of_mem hn) letterWeight)
    have hkeyWeight : letterWeight.total "snapshot_name".toList = 1 := by decide
    have hle := total_le_of_double hread hF
    have hle' := Weight.total_le_of_doubleRead (W := letterWeight) hread
    have heq := htotal letterWeight
    have hmark : letterWeight.mark = 0 := rfl
    have hbreak : letterWeight.of '\n' = 0 := rfl
    rw [hw, Weight.total_append, Weight.total_cons] at heq
    rw [Weight.total_append, Weight.total_cons] at hle'
    omega

/-- **A name that comes back stands for itself.** -/
theorem plainLine_of_load {h : Host} {root : Path} {files : FileTree} {v : UserConfig}
    (hfile : files.textAt? (path root) = .ok (some u.toText)) (hload : load h root files = .ok v)
    (hsame : v.SameValues u) (hdefault : u.snapshotNameOrDefault ≠ ({} : GraphConfig).snapshotName) :
    PlainLine u.snapshotNameOrDefault := by
  have hname : v.snapshotName = some u.snapshotNameOrDefault := by
    have hsame := hsame.snapshotName
    rw [UserConfig.snapshotNameOrDefault] at hsame
    cases hv : v.snapshotName with
    | none =>
      rw [hv] at hsame
      exact absurd hsame.symm hdefault
    | some name =>
      rw [hv] at hsame
      exact congrArg some hsame
  have hargs : u.clangArgsOrDefault ≠ [] → v.clangArgs = some u.clangArgsOrDefault := by
    intro hne
    have hsame := hsame.clangArgs
    rw [UserConfig.clangArgsOrDefault] at hsame
    cases hv : v.clangArgs with
    | none =>
      rw [hv] at hsame
      exact absurd hsame.symm hne
    | some args =>
      rw [hv] at hsame
      exact congrArg some hsame
  -- the file is read as a mapping that sets the name
  obtain ⟨ms, ⟨text, node, u', htext, hcompose, hvalue, hodd, -⟩, hms⟩ :=
    (load_cases hload).resolve_right fun hnone => by
      have hsections := hnone.2
      rw [sections, hname] at hsections
      cases hsections
  obtain rfl : u.toText = text := Option.some.inj (Except.ok.inj (hfile.symm.trans htext))
  obtain ⟨depth, hdepth⟩ : ∃ depth, h.configDepth = depth + 1 := ⟨h.configDepth - 1, by
    have hample := h.ample.2.2
    omega⟩
  rw [hdepth] at hcompose
  obtain ⟨first, w, ns, rfl, hlines, hallowed, hfirst, hentries⟩ := exists_entries hdefault hcompose
  obtain ⟨hnames, hlists⟩ := exists_member hvalue hms
  obtain ⟨⟨k, x⟩, hmem, hkey, hx⟩ := hnames _ hname
  have hkeyText : k.isTextKey = true := by
    rw [Node.hasOddKey, List.any_eq_false] at hodd
    simpa using hodd (k, x) hmem
  refine plainLine_of_entries hlines hallowed hfirst hentries hmem hkey hkeyText hx fun hne => ?_
  obtain ⟨n, hn, -, hjson⟩ := hlists _ (hargs hne)
  exact ⟨n, hn, hjson⟩

theorem plainLine_default : PlainLine ({} : GraphConfig).snapshotName :=
  ⟨by decide, by decide, by decide, plainText_of_notMem (by decide) (by decide) (by decide), by decide⟩

theorem textAt?_of_contentAt? {p : Path} {files : FileTree} {s : String}
    (hpath : files.refusesPath .top p = false) (hfile : files.contentAt? p = some (Utf8.encode s)) :
    files.textAt? p = .ok (some s) := by
  obtain ⟨t, hreach, hcontent⟩ := Option.bind_eq_some_iff.1 hfile
  cases t with
  | dir es => cases hcontent
  | file content =>
    obtain rfl : content = Utf8.encode s := Option.some.inj hcontent
    rw [FileTree.textAt?, hpath, if_neg Bool.false_ne_true, FileTree.place, Path.names_top_join]
    change FileTree.reach? p.names files = _ at hreach
    rw [hreach]
    dsimp only
    rw [Utf8.decode?_encode]

/-- **What is written comes back exactly if the name stands for itself**, whatever the name, the level
    and the arguments are. -/
theorem sameValues_load_iff {h : Host} {root : Path} {files : FileTree} {u : UserConfig}
    (hpath : files.refusesPath .top (path root) = false)
    (hfile : files.contentAt? (path root) = some (Utf8.encode u.toText)) :
    (∃ v, load h root files = .ok v ∧ v.SameValues u) ↔ PlainLine u.snapshotNameOrDefault := by
  have htext := textAt?_of_contentAt? hpath hfile
  constructor
  · rintro ⟨v, hload, hsame⟩
    by_cases hdefault : u.snapshotNameOrDefault = ({} : GraphConfig).snapshotName
    · rw [hdefault]
      exact plainLine_default
    · exact plainLine_of_load htext hload hsame hdefault
  · intro hname
    refine ⟨u.written, ?_, sameValues_written u⟩
    rw [load, htext, ok_bind, ofText?]
    exact ofText_toText h hname

/-- A code base with the file of a user. -/
def writtenFiles (u : UserConfig) : FileTree :=
  .dir [(".symgraph", .dir [("config.yaml", .file (Utf8.encode u.toText))])]

/-- Two arguments with blanks and marks and a name of two words come back; a number does not, nor does a
    name of two lines. -/
theorem sameValues_load_words_not_number :
    (∃ v, load {} .top (writtenFiles ⟨some "my graph.json", some .debug, some ["-I it's: \n", "-Dé=1, 2"]⟩) =
        .ok v ∧ v.SameValues ⟨some "my graph.json", some .debug, some ["-I it's: \n", "-Dé=1, 2"]⟩) ∧
      (¬ ∃ v, load {} .top (writtenFiles ⟨some "123", none, none⟩) = .ok v ∧
        v.SameValues ⟨some "123", none, none⟩) ∧
      ¬ ∃ v, load {} .top (writtenFiles ⟨some "my\n graph.json", none, none⟩) = .ok v ∧
        v.SameValues ⟨some "my\n graph.json", none, none⟩ := by
  refine ⟨?_, ?_, ?_⟩
  · exact (sameValues_load_iff (by decide) rfl).2
      ⟨by decide, by decide, by decide, plainText_of_notMem (by decide) (by decide) (by decide), by decide⟩
  · exact fun h => absurd ((sameValues_load_iff (by decide) rfl).1 h).isText (by decide)
  · exact fun h => absurd (((sameValues_load_iff (by decide) rfl).1 h).line '\n' (by decide)) (by decide)

end DeclGraph.UserConfig
