/-
  Reading back the JSON texts that are written.

  The values are those without floating point numbers and with distinct keys in
  every object; what the graph writes is one of them.

  * `Plain.flaw?_eq_none` and `Plain.flaw?_eq_some`: only a long integer keeps such a value
    from being written;
  * `read_of_write`: what is written is read back.
-/
import DeclGraph.Json.Parser
import DeclGraph.Json.Printer
import DeclGraph.Proofs.Except
import DeclGraph.Proofs.Table
import Mathlib.Data.List.TakeDrop
import Mathlib.Data.List.TakeWhile
import Mathlib.Tactic.SplitIfs

namespace DeclGraph.Json

/-! ## Texts -/

theorem hexValue?_digitChar : ∀ d < 16, hexValue? (Nat.digitChar d) = some d := by decide

theorem unit?_hexDigits {n : Nat} (h : n < 0x10000) (rest : List Char) :
    unit? (Text.hexDigits 4 n ++ rest) = some (n, rest) := by
  have digit (m : Nat) : hexValue? (Nat.digitChar (m % 16)) = some (m % 16) :=
    hexValue?_digitChar _ (Nat.mod_lt _ (by omega))
  simp only [Text.hexDigits, List.nil_append, List.cons_append, unit?, digit,
    Option.bind_eq_bind, Option.bind_some, Option.some.injEq, Prod.mk.injEq, and_true]
  omega

theorem toNat_lt_or (c : Char) :
    c.toNat < 0xd800 ∨ 0xdfff < c.toNat ∧ c.toNat < 0x110000 := c.valid

/-- A character of the first plane is read back from its unit. -/
theorem escaped?_unit {c : Char} (h : c.toNat < 0x10000) (rest : List Char) :
    escaped? ('u' :: (Text.hexDigits 4 c.toNat ++ rest)) = some (c, rest) := by
  have := toNat_lt_or c
  have h₁ : ¬ (0xd800 ≤ c.toNat ∧ c.toNat ≤ 0xdbff) := by omega
  have h₂ : ¬ (0xdc00 ≤ c.toNat ∧ c.toNat ≤ 0xdfff) := by omega
  simp only [escaped?, unit?_hexDigits h, Option.bind_eq_bind, Option.bind_some, Bool.and_eq_true,
    decide_eq_true_eq, if_neg h₁, if_neg h₂, Char.ofNat_toNat]

theorem lowUnit?_escapeUnit {n : Nat} (h : n < 0x400) (rest : List Char) :
    lowUnit? (escapeUnit (0xdc00 + n) ++ rest) = some (0xdc00 + n, rest) := by
  have h' : 0xdc00 ≤ 0xdc00 + n ∧ 0xdc00 + n ≤ 0xdfff := by omega
  simp only [escapeUnit, List.cons_append, lowUnit?, unit?_hexDigits (n := 0xdc00 + n) (by omega),
    Option.bind_eq_bind, Option.bind_some, Bool.and_eq_true, decide_eq_true_eq, if_pos h']

/-- A character of a later plane is read back from its two units. -/
theorem escaped?_units {c : Char} (h : 0x10000 ≤ c.toNat) (rest : List Char) :
    escaped? ('u' :: (Text.hexDigits 4 (0xd800 + (c.toNat - 0x10000) / 0x400) ++
      (escapeUnit (0xdc00 + (c.toNat - 0x10000) % 0x400) ++ rest))) = some (c, rest) := by
  have := toNat_lt_or c
  obtain ⟨n, hn⟩ : ∃ n, n = c.toNat - 0x10000 := ⟨_, rfl⟩
  have h₁ : 0xd800 ≤ 0xd800 + n / 0x400 ∧ 0xd800 + n / 0x400 ≤ 0xdbff := by omega
  have h₂ : 0x10000 + (0xd800 + n / 0x400 - 0xd800) * 0x400 + (0xdc00 + n % 0x400 - 0xdc00) =
      c.toNat := by omega
  rw [← hn]
  simp only [escaped?, unit?_hexDigits (n := 0xd800 + n / 0x400) (by omega),
    lowUnit?_escapeUnit (n := n % 0x400) (by omega), Option.bind_eq_bind, Option.bind_some,
    Bool.and_eq_true, decide_eq_true_eq, if_pos h₁, h₂, Char.ofNat_toNat]

theorem textBody?_escape {c : Char} {cs rest : List Char} (h : escaped? cs = some (c, rest))
    (fuel : Nat) :
    textBody? (fuel + 1) ('\\' :: cs) = (textBody? fuel rest).map fun p => (c :: p.1, p.2) := by
  simp only [textBody?, h, Option.bind_eq_bind, Option.bind_some]
  cases textBody? fuel rest <;> rfl

theorem textBody?_plain {c : Char} (hq : c ≠ '"') (hb : c ≠ '\\') (hc : 0x20 ≤ c.toNat)
    (fuel : Nat) (rest : List Char) :
    textBody? (fuel + 1) (c :: rest) = (textBody? fuel rest).map fun p => (c :: p.1, p.2) := by
  rw [textBody?, if_neg (by omega)]
  · cases textBody? fuel rest <;> rfl
  · exact hq
  · exact hb

/-- One character is read back from what is written for it. -/
theorem textBody?_escapeChar (c : Char) (fuel : Nat) (rest : List Char) :
    textBody? (fuel + 1) (escapeChar c ++ rest) =
      (textBody? fuel rest).map fun p => (c :: p.1, p.2) := by
  unfold escapeChar
  iterate 7
    split
    · subst c; exact textBody?_escape rfl fuel
  rename_i hq hb _ _ _ _ _
  split
  · rename_i h; exact textBody?_plain hq hb h.1 fuel rest
  · split
    · rename_i h; exact textBody?_escape (escaped?_unit h rest) fuel
    · rename_i h
      rw [List.append_assoc]
      exact textBody?_escape (escaped?_units (by omega) rest) fuel

theorem textBody?_flatMap (cs : List Char) (rest : List Char) :
    ∀ fuel, cs.length < fuel →
      textBody? fuel (cs.flatMap escapeChar ++ '"' :: rest) = some (cs, rest) := by
  induction cs with
  | nil =>
    intro fuel h
    obtain ⟨fuel, rfl⟩ := Nat.exists_eq_succ_of_ne_zero (by omega : fuel ≠ 0)
    rfl
  | cons c cs ih =>
    intro fuel h
    obtain ⟨fuel, rfl⟩ := Nat.exists_eq_succ_of_ne_zero (by omega : fuel ≠ 0)
    rw [List.flatMap_cons, List.append_assoc, textBody?_escapeChar, ih fuel (by simpa using h)]
    rfl

theorem one_le_length_escapeChar (c : Char) : 1 ≤ (escapeChar c).length := by
  unfold escapeChar escapeUnit
  split_ifs <;> simp

theorem length_le_flatMap_escapeChar (cs : List Char) :
    cs.length ≤ (cs.flatMap escapeChar).length := by
  induction cs with
  | nil => simp
  | cons c cs ih =>
    have := one_le_length_escapeChar c
    simp only [List.flatMap_cons, List.length_append, List.length_cons]; omega

/-- **A text in its quotes is read back.** -/
theorem text_renderText (s : String) (rest : List Char) :
    text (s.toList.flatMap escapeChar ++ '"' :: rest) = some (s, rest) := by
  have hlen := length_le_flatMap_escapeChar s.toList
  have hfuel : s.toList.length < (s.toList.flatMap escapeChar ++ '"' :: rest).length + 1 := by
    rw [List.length_append]; omega
  rw [text, textBody?_flatMap s.toList rest _ hfuel]
  simp only [Option.bind_eq_bind, Option.bind_some, String.ofList_toList]

/-! ## Integers -/

/-- What may stand after a value: nothing, or a character that no value goes on
    with. -/
def Closed (rest : List Char) : Prop :=
  ∀ c ∈ rest.head?, c = ',' ∨ c = ']' ∨ c = '\x7d' ∨ c = '\n'

theorem closed_nil : Closed [] := by simp [Closed]

theorem closed_cons {c : Char} {cs : List Char}
    (h : c = ',' ∨ c = ']' ∨ c = '\x7d' ∨ c = '\n') : Closed (c :: cs) := by
  simpa [Closed] using h

theorem natOfDigits_append (ds : List Char) (d : Char) :
    natOfDigits (ds ++ [d]) = 10 * natOfDigits ds + (d.toNat - 48) := by
  rw [natOfDigits, List.foldl_append]; rfl

theorem toNat_digitChar : ∀ d < 10, (Nat.digitChar d).toNat - 48 = d := by decide

theorem natOfDigits_toDigits (n : Nat) : natOfDigits (Nat.toDigits 10 n) = n := by
  induction n using Nat.strongRecOn with
  | _ n ih =>
    rw [Nat.toDigits_eq_if (by omega)]
    split
    · rename_i h; simpa [natOfDigits] using toNat_digitChar n h
    · rw [natOfDigits_append, ih _ (by omega), toNat_digitChar _ (Nat.mod_lt _ (by omega))]
      omega

theorem isDigit_of_mem_toDigits (n : Nat) : ∀ c ∈ Nat.toDigits 10 n, c.isDigit :=
  fun _ hc => Nat.isDigit_of_mem_toDigits (by omega) (by omega) hc

theorem digitChar_ne_zero : ∀ d < 10, d ≠ 0 → Nat.digitChar d ≠ '0' := by decide

/-- The digits of a positive number do not begin with a zero. -/
theorem exists_toDigits {n : Nat} (h : n ≠ 0) :
    ∃ d ds, Nat.toDigits 10 n = d :: ds ∧ d ≠ '0' ∧ d.isDigit := by
  induction n using Nat.strongRecOn with
  | _ n ih =>
    have hd := isDigit_of_mem_toDigits n
    rw [Nat.toDigits_eq_if (by omega)] at hd ⊢
    split at hd
    · rename_i hn
      exact ⟨_, [], by rw [if_pos hn], digitChar_ne_zero n hn h, hd _ (by simp)⟩
    · rename_i hn
      obtain ⟨d, ds, hds, h0, hdig⟩ := ih (n / 10) (by omega) (by omega)
      exact ⟨d, ds ++ [Nat.digitChar (n % 10)], by rw [if_neg hn, hds]; rfl, h0, hdig⟩

theorem spanDigits_append {ds rest : List Char} (hds : ∀ c ∈ ds, c.isDigit) (h : Closed rest) :
    spanDigits (ds ++ rest) = (ds, rest) := by
  have hrest : ∀ c ∈ rest.head?, c.isDigit = false := by
    intro c hc
    rcases h c hc with rfl | rfl | rfl | rfl <;> rfl
  rw [spanDigits, List.span_eq_takeWhile_dropWhile, List.takeWhile_append_of_pos hds,
    List.dropWhile_append_of_pos hds]
  cases rest with
  | nil => simp
  | cons c cs => simp [hrest c rfl]

theorem fraction?_eq_none {rest : List Char} (h : Closed rest) : fraction? rest = none := by
  unfold fraction?
  split
  · have := h '.' rfl
    simp at this
  · rfl

theorem exponent?_eq_none {rest : List Char} (h : Closed rest) : exponent? rest = none := by
  unfold exponent?
  split
  · have := h 'e' rfl
    simp at this
  · have := h 'E' rfl
    simp at this
  · rfl

theorem whole?_toDigits (n : Nat) {rest : List Char} (h : Closed rest) :
    whole? (Nat.toDigits 10 n ++ rest) = some (Nat.toDigits 10 n, rest) := by
  have hspan := spanDigits_append (isDigit_of_mem_toDigits n) h
  by_cases h0 : n = 0
  · rw [h0, Nat.toDigits_zero]; rfl
  · obtain ⟨d, ds, hds, hd, -⟩ := exists_toDigits h0
    rw [hds, List.cons_append] at hspan ⊢
    unfold whole?
    split
    · rename_i heq; exact absurd (List.cons.inj heq).1 hd
    · rw [hspan]

theorem length_toDigits_le {n k : Nat} (hk : 0 < k) (hn : n < tenTo k) : (Nat.toDigits 10 n).length ≤ k :=
  (Nat.length_toDigits_le_iff (by decide) hk).2 hn

theorem le_tenTo {k : Nat} (hk : 0 < k) : 10 ≤ tenTo k :=
  Nat.le_pow hk

theorem readUnsigned_toDigits (negative : Bool) {n : Nat} (hn : n < tenTo Text.maxIntDigits)
    {rest : List Char} (h : Closed rest) : readUnsigned negative (Nat.toDigits 10 n ++ rest) =
      .ok (int (if negative then -(n : Int) else n), rest) := by
  have hlength : ¬ Text.maxIntDigits < (Nat.toDigits 10 n).length :=
    Nat.not_lt.2 (length_toDigits_le (by decide) hn)
  simp only [readUnsigned, whole?_toDigits n h, fraction?_eq_none h, exponent?_eq_none h,
    Option.getD_none, Option.isSome_none, Bool.or_self, Bool.false_eq_true, if_false,
    if_neg hlength, natOfDigits_toDigits]

theorem readScalar_digit {d : Char} (h : d.isDigit) (cs : List Char) :
    readScalar (d :: cs) = readUnsigned false (d :: cs) := by
  unfold readScalar
  split <;> rename_i heq <;> first | rfl | (cases heq; simp at h)

theorem readScalar_minus {d : Char} (h : d.isDigit) (cs : List Char) :
    readScalar ('-' :: d :: cs) = readUnsigned true (d :: cs) := by
  unfold readScalar
  split <;> rename_i heq <;> try cases heq
  · simp at h
  · rfl
  · exact absurd rfl (heq _)

/-- An integer has few enough digits to be written. -/
def Short (n : Int) : Prop := isLong n = false

/-- Numbers of one digit are short. -/
theorem short_of_lt {n : Int} (h : n.natAbs < 10) : Short n :=
  decide_eq_false (Nat.not_le.2 (Nat.lt_of_lt_of_le h (le_tenTo (by decide))))

theorem natAbs_lt_of_short {n : Int} (h : Short n) : n.natAbs < tenTo Text.maxIntDigits :=
  Nat.not_le.1 (of_decide_eq_false h)

/-- **An integer is read back** if it is short. -/
theorem readScalar_renderInt {n : Int} (hn : Short n) {rest : List Char} (h : Closed rest) :
    readScalar (renderInt n ++ rest) = .ok (int n, rest) := by
  obtain ⟨d, ds, hds, hd⟩ : ∃ d ds, Nat.toDigits 10 n.natAbs = d :: ds ∧ d.isDigit := by
    by_cases h0 : n.natAbs = 0
    · exact ⟨'0', [], by rw [h0, Nat.toDigits_zero], rfl⟩
    · obtain ⟨d, ds, hds, -, hd⟩ := exists_toDigits h0
      exact ⟨d, ds, hds, hd⟩
  have hread (negative : Bool) := readUnsigned_toDigits negative (natAbs_lt_of_short hn) h
  clear hn
  rw [hds, List.cons_append] at hread
  unfold renderInt
  split
  · rw [hds, List.cons_append, List.cons_append, readScalar_minus hd, hread, if_pos rfl]
    congr; omega
  · rw [hds, List.cons_append, readScalar_digit hd, hread, if_neg (by decide)]
    congr; omega

/-! ## Layout -/

theorem skipSpace_append {ws : List Char} (hws : ∀ c ∈ ws, isSpace c) (cs : List Char) :
    skipSpace (ws ++ cs) = skipSpace cs :=
  List.dropWhile_append_of_pos hws

theorem skipSpace_cons {c : Char} (h : isSpace c = false) (cs : List Char) :
    skipSpace (c :: cs) = c :: cs := by
  simp [skipSpace, h]

theorem isSpace_of_mem_gap {lay : Layout} {depth : Nat} : ∀ c ∈ lay.gap depth, isSpace c := by
  intro c hc
  cases lay with
  | oneLine => simp [Layout.gap] at hc
  | indented =>
    rcases List.mem_cons.1 hc with rfl | hc
    · rfl
    · rw [List.eq_of_mem_replicate hc]; rfl

/-- What stands between two items is a comma and blanks. -/
theorem exists_comma (lay : Layout) (depth : Nat) :
    ∃ ws, lay.comma ++ lay.gap depth = ',' :: ws ∧ ∀ c ∈ ws, isSpace c := by
  cases lay with
  | oneLine => exact ⟨[' '], rfl, by simp [isSpace]⟩
  | indented => exact ⟨_, rfl, isSpace_of_mem_gap⟩

theorem closed_gap_append (lay : Layout) (depth : Nat) {cs : List Char} (h : Closed cs) :
    Closed (lay.gap depth ++ cs) := by
  cases lay with
  | oneLine => exact h
  | indented => exact closed_cons (by simp)

theorem readValue_blanks {ws : List Char} (hws : ∀ c ∈ ws, isSpace c) (fuel depth : Nat)
    (cs : List Char) : readValue fuel depth (ws ++ cs) = readValue fuel depth cs := by
  cases fuel with
  | zero => rfl
  | succ fuel => simp only [readValue, skipSpace_append hws]

theorem readMembers_blanks {ws : List Char} (hws : ∀ c ∈ ws, isSpace c) (fuel depth : Nat)
    (cs : List Char) : readMembers fuel depth (ws ++ cs) = readMembers fuel depth cs := by
  cases fuel with
  | zero => rfl
  | succ fuel => simp only [readMembers, skipSpace_append hws]

theorem readItems_blanks {ws : List Char} (hws : ∀ c ∈ ws, isSpace c) (fuel depth : Nat)
    (cs : List Char) : readItems fuel depth (ws ++ cs) = readItems fuel depth cs := by
  cases fuel with
  | zero => rfl
  | succ fuel => simp only [readItems, readValue_blanks hws]

/-! ## Plain values -/

/-- Values that are read back from their texts: without floating point numbers,
    and no object has a key twice.  The integers in them satisfy `p`, and at most `depth`
    lists and objects lie in one another. -/
inductive Plain (p : Int → Prop) : (depth : Nat) → Json → Prop where
  | null {depth : Nat} : Plain p depth null
  | bool {depth : Nat} (b : Bool) : Plain p depth (bool b)
  | int {depth : Nat} {n : Int} (hn : p n) : Plain p depth (int n)
  | str {depth : Nat} (s : String) : Plain p depth (str s)
  | arr {depth : Nat} {items : List Json} (h : ∀ x ∈ items, Plain p depth x) :
    Plain p (depth + 1) (arr items)
  | obj {depth : Nat} {ms : List (String × Json)} (hk : (ms.map Prod.fst).Nodup)
    (h : ∀ m ∈ ms, Plain p depth m.2) : Plain p (depth + 1) (obj ms)

variable {p q : Int → Prop} {d e : Nat} {j : Json}

theorem Plain.mono (h : Plain p d j) (hpq : ∀ n, p n → q n) (hde : d ≤ e) : Plain q e j := by
  induction h generalizing e with
  | null => exact .null
  | bool b => exact .bool b
  | int hn => exact .int (hpq _ hn)
  | str s => exact .str s
  | arr _ ih =>
    obtain ⟨e, rfl⟩ := Nat.exists_eq_add_one_of_ne_zero (by omega : e ≠ 0)
    exact .arr fun x hx => ih x hx (by omega)
  | obj hk _ ih =>
    obtain ⟨e, rfl⟩ := Nat.exists_eq_add_one_of_ne_zero (by omega : e ≠ 0)
    exact .obj hk fun m hm => ih m hm (by omega)

theorem ofMembers_of_nodup {ms : List (String × Json)} (h : (ms.map Prod.fst).Nodup) :
    ofMembers ms = obj ms := by
  rw [ofMembers, Table.foldl_put_of_nodup ms [] h, List.nil_append]

/-! ## Flaws -/

theorem flawOfItems?_eq_none_iff {xs : List Json} :
    flawOfItems? d xs = none ↔ ∀ x ∈ xs, flaw? d x = none := by
  induction xs with
  | nil => simp [flawOfItems?]
  | cons x xs ih =>
    rw [flawOfItems?, List.forall_mem_cons, ← ih]
    cases flaw? d x <;> simp

theorem flawOfMembers?_eq_none_iff {ms : List (String × Json)} :
    flawOfMembers? d ms = none ↔ ∀ m ∈ ms, flaw? d m.2 = none := by
  induction ms with
  | nil => simp [flawOfMembers?]
  | cons m ms ih =>
    rw [flawOfMembers?, List.forall_mem_cons, ← ih]
    cases flaw? d m.2 <;> simp

theorem exists_flaw?_of_flawOfItems? {xs : List Json} {fault : Fault}
    (h : flawOfItems? d xs = some fault) : ∃ x ∈ xs, flaw? d x = some fault := by
  induction xs with
  | nil => cases h
  | cons x xs ih =>
    rw [flawOfItems?] at h
    cases hx : flaw? d x with
    | some fault' =>
      rw [hx] at h
      exact ⟨x, List.mem_cons_self, hx.trans h⟩
    | none =>
      rw [hx] at h
      obtain ⟨y, hy, hflaw⟩ := ih h
      exact ⟨y, List.mem_cons_of_mem _ hy, hflaw⟩

theorem exists_flaw?_of_flawOfMembers? {ms : List (String × Json)} {fault : Fault}
    (h : flawOfMembers? d ms = some fault) : ∃ m ∈ ms, flaw? d m.2 = some fault := by
  induction ms with
  | nil => cases h
  | cons m ms ih =>
    rw [flawOfMembers?] at h
    cases hm : flaw? d m.2 with
    | some fault' =>
      rw [hm] at h
      exact ⟨m, List.mem_cons_self, hm.trans h⟩
    | none =>
      rw [hm] at h
      obtain ⟨m', hm', hflaw⟩ := ih h
      exact ⟨m', List.mem_cons_of_mem _ hm', hflaw⟩

/-- A plain value that is not too high can be written if its integers are short, … -/
theorem Plain.flaw?_eq_none (h : Plain Short d j) (hde : d ≤ e) : flaw? e j = none := by
  induction h generalizing e with
  | null | bool | str => rfl
  | int hn => rw [flaw?, hn]; rfl
  | arr _ ih =>
    obtain ⟨e, rfl⟩ := Nat.exists_eq_add_one_of_ne_zero (by omega : e ≠ 0)
    exact flawOfItems?_eq_none_iff.2 fun x hx => ih x hx (by omega)
  | obj _ _ ih =>
    obtain ⟨e, rfl⟩ := Nat.exists_eq_add_one_of_ne_zero (by omega : e ≠ 0)
    exact flawOfMembers?_eq_none_iff.2 fun m hm => ih m hm (by omega)

/-- … its integers are short if it can be written, … -/
theorem Plain.short_of_flaw? (h : Plain p d j) (hflaw : flaw? e j = none) : Plain Short d j := by
  induction h generalizing e with
  | null => exact .null
  | bool b => exact .bool b
  | @int _ n _ =>
    refine .int ?_
    rw [flaw?] at hflaw
    unfold Short
    cases hlong : isLong n with
    | true => rw [hlong] at hflaw; cases hflaw
    | false => rfl
  | str s => exact .str s
  | arr _ ih =>
    cases e with
    | zero => cases hflaw
    | succ e => exact .arr fun x hx => ih x hx (flawOfItems?_eq_none_iff.1 hflaw x hx)
  | obj hk _ ih =>
    cases e with
    | zero => cases hflaw
    | succ e => exact .obj hk fun m hm => ih m hm (flawOfMembers?_eq_none_iff.1 hflaw m hm)

/-- … and else an integer is too long. -/
theorem Plain.flaw?_eq_some {fault : Fault} (h : Plain p d j) (hde : d ≤ e)
    (hflaw : flaw? e j = some fault) : fault = .longInteger := by
  induction h generalizing e with
  | null | bool | str => cases hflaw
  | int =>
    rw [flaw?] at hflaw
    split at hflaw
    · exact (Option.some.inj hflaw).symm
    · cases hflaw
  | arr _ ih =>
    obtain ⟨e, rfl⟩ := Nat.exists_eq_add_one_of_ne_zero (by omega : e ≠ 0)
    obtain ⟨x, hx, hflaw⟩ := exists_flaw?_of_flawOfItems? hflaw
    exact ih x hx (by omega) hflaw
  | obj _ _ ih =>
    obtain ⟨e, rfl⟩ := Nat.exists_eq_add_one_of_ne_zero (by omega : e ≠ 0)
    obtain ⟨m, hm, hflaw⟩ := exists_flaw?_of_flawOfMembers? hflaw
    exact ih m hm (by omega) hflaw

theorem write_eq_ok_iff {lay : Layout} {s : String} :
    j.write d lay = .ok s ↔ flaw? d j = none ∧ j.render lay = s := by
  rw [write]
  cases flaw? d j <;> simp

/-! ## Values -/

/-- A value is read back from its text with a bound on the depth, whatever follows. -/
def Reads (d : Nat) (j : Json) : Prop :=
  ∀ (lay : Layout) (depth fuel : Nat) (rest : List Char),
    (renderAt lay depth j).length ≤ fuel → Closed rest →
      readValue fuel d (renderAt lay depth j ++ rest) = .ok (j, rest)

theorem readValue_scalar {c : Char} (hc : c ∉ [' ', '\t', '\n', '\r', '\x7b', '[', '"'])
    (fuel d : Nat) (cs : List Char) : readValue (fuel + 1) d (c :: cs) = readScalar (c :: cs) := by
  have hs : skipSpace (c :: cs) = c :: cs := by
    refine skipSpace_cons ?_ cs
    simp only [List.mem_cons, not_or] at hc
    simp [isSpace, hc]
  rw [readValue, hs]
  split <;> rename_i heq <;> first | (cases heq; simp at hc) | skip
  rfl

theorem reads_of_scalar {c : Char} {cs : List Char}
    (hc : c ∉ [' ', '\t', '\n', '\r', '\x7b', '[', '"'])
    (hj : ∀ lay depth, renderAt lay depth j = c :: cs)
    (hs : ∀ rest, Closed rest → readScalar (c :: cs ++ rest) = .ok (j, rest)) : Reads d j := by
  intro lay depth fuel rest hf hrest
  rw [hj] at hf ⊢
  obtain ⟨fuel, rfl⟩ := Nat.exists_eq_add_one_of_ne_zero
    (Nat.ne_of_gt (Nat.lt_of_lt_of_le (Nat.succ_pos _) hf))
  have := readValue_scalar hc fuel d (cs ++ rest)
  rw [List.cons_append, this]
  exact hs rest hrest

theorem reads_null : Reads d null :=
  reads_of_scalar (by decide) (fun _ _ => rfl) fun _ _ => rfl

theorem reads_bool (b : Bool) : Reads d (bool b) := by
  cases b
  · exact reads_of_scalar (by decide) (fun _ _ => rfl) fun _ _ => rfl
  · exact reads_of_scalar (by decide) (fun _ _ => rfl) fun _ _ => rfl

theorem reads_int {n : Int} (hn : Short n) : Reads d (int n) := by
  have hhead : ∃ c cs, renderInt n = c :: cs ∧
      c ∉ [' ', '\t', '\n', '\r', '\x7b', '[', '"'] := by
    unfold renderInt
    split
    · exact ⟨_, _, rfl, by decide⟩
    · have hdig := isDigit_of_mem_toDigits n.natAbs
      cases hds : Nat.toDigits 10 n.natAbs with
      | nil => exact absurd hds Nat.toDigits_ne_nil
      | cons d ds =>
        refine ⟨d, ds, rfl, fun hd => ?_⟩
        have := hdig d (by simp [hds])
        simp only [List.mem_cons, List.not_mem_nil, or_false] at hd
        rcases hd with rfl | rfl | rfl | rfl | rfl | rfl | rfl <;> simp at this
  obtain ⟨c, cs, hcs, hc⟩ := hhead
  exact reads_of_scalar hc (fun _ _ => hcs) fun rest hrest => hcs ▸ readScalar_renderInt hn hrest

theorem reads_str (s : String) : Reads d (str s) := by
  intro lay depth fuel rest hf _
  obtain ⟨fuel, rfl⟩ := Nat.exists_eq_add_one_of_ne_zero (n := fuel) (by
    simp only [renderAt, renderText, List.cons_append, List.length_cons] at hf; omega)
  simp only [renderAt, renderText, List.cons_append, List.append_assoc, readValue,
    skipSpace_cons (c := '"') rfl, List.nil_append, readText, text_renderText, ok_bind]
  rfl

theorem readItems_last {fuel : Nat} {cs tail rest : List Char} {x : Json}
    (hx : readValue fuel d cs = .ok (x, tail)) (ht : skipSpace tail = ']' :: rest) :
    readItems (fuel + 1) d cs = .ok ([x], rest) := by
  simp only [readItems, hx, ht, ok_bind]
  rfl

theorem readItems_more {fuel : Nat} {cs tail rest : List Char} {x : Json} {xs : List Json}
    (hx : readValue fuel d cs = .ok (x, ',' :: tail)) (hm : readItems fuel d tail = .ok (xs, rest)) :
    readItems (fuel + 1) d cs = .ok (x :: xs, rest) := by
  simp only [readItems, hx, skipSpace_cons (c := ',') rfl, hm, ok_bind]
  rfl

theorem readItems_render {lay : Layout} {depth outer : Nat} (xs : List Json) :
    ∀ (x : Json), (∀ y ∈ x :: xs, Reads d y) → ∀ (fuel : Nat) (rest : List Char),
      (renderAt lay depth x).length + (renderItems lay depth xs).length < fuel →
      readItems fuel d (renderAt lay depth x ++ (renderItems lay depth xs ++
        (lay.gap outer ++ ']' :: rest))) = .ok (x :: xs, rest) := by
  induction xs with
  | nil =>
    intro x hx fuel rest hf
    obtain ⟨fuel, rfl⟩ := Nat.exists_eq_add_one_of_ne_zero (by omega : fuel ≠ 0)
    have hend : Closed (lay.gap outer ++ ']' :: rest) :=
      closed_gap_append lay outer (closed_cons (by simp))
    rw [renderItems, List.nil_append]
    refine readItems_last (hx x (by simp) lay depth fuel _ (by omega) hend) ?_
    rw [skipSpace_append isSpace_of_mem_gap, skipSpace_cons rfl]
  | cons y ys ih =>
    intro x hx fuel rest hf
    obtain ⟨fuel, rfl⟩ := Nat.exists_eq_add_one_of_ne_zero (by omega : fuel ≠ 0)
    obtain ⟨ws, hws, hblank⟩ := exists_comma lay depth
    simp only [renderItems, hws, List.length_append, List.length_cons] at hf
    have hrest := ih y (fun z hz => hx z (List.mem_cons_of_mem _ hz)) fuel rest (by omega)
    simp only [renderItems, hws, List.append_assoc, List.cons_append]
    refine readItems_more (hx x (by simp) lay depth fuel _ (by omega) (closed_cons (by simp))) ?_
    rw [readItems_blanks hblank, hrest]

theorem isSpace_of_mem_takeWhile (cs : List Char) : ∀ c ∈ cs.takeWhile isSpace, isSpace c :=
  fun _ hc => List.mem_takeWhile_imp hc

theorem readItems_skipSpace (fuel d : Nat) (cs : List Char) :
    readItems fuel d (skipSpace cs) = readItems fuel d cs := by
  have h := readItems_blanks (isSpace_of_mem_takeWhile cs) fuel d (skipSpace cs)
  rw [skipSpace, List.takeWhile_append_dropWhile] at h
  exact h.symm

theorem readMembers_skipSpace (fuel d : Nat) (cs : List Char) :
    readMembers fuel d (skipSpace cs) = readMembers fuel d cs := by
  have h := readMembers_blanks (isSpace_of_mem_takeWhile cs) fuel d (skipSpace cs)
  rw [skipSpace, List.takeWhile_append_dropWhile] at h
  exact h.symm

theorem readValue_arr {fuel : Nat} {cs rest : List Char} {xs : List Json}
    (h : readItems fuel d cs = .ok (xs, rest)) :
    readValue (fuel + 1) (d + 1) ('[' :: cs) = .ok (arr xs, rest) := by
  rw [readValue, skipSpace_cons rfl]
  simp only
  rw [← readItems_skipSpace] at h
  split
  · -- no item begins with a closing bracket
    rename_i heq
    cases fuel with
    | zero => simp [readItems] at h
    | succ fuel =>
      have hnone (cs : List Char) : readValue fuel d (']' :: cs) = .error .malformed := by
        cases fuel <;> rfl
      rw [heq, readItems, hnone] at h
      cases h
  · rw [h]; rfl

theorem readValue_obj {fuel : Nat} {cs rest : List Char} {ms : List (String × Json)}
    (h : readMembers fuel d cs = .ok (ms, rest)) :
    readValue (fuel + 1) (d + 1) ('\x7b' :: cs) = .ok (ofMembers ms, rest) := by
  rw [readValue, skipSpace_cons rfl]
  simp only
  rw [← readMembers_skipSpace] at h
  split
  · rename_i heq
    rw [heq] at h
    cases fuel <;> simp [readMembers, skipSpace_cons (c := '\x7d') rfl] at h
  · rw [h]; rfl

theorem reads_arr {items : List Json} (h : ∀ x ∈ items, Reads d x) :
    Reads (d + 1) (arr items) := by
  intro lay depth fuel rest hf _
  cases items with
  | nil =>
    obtain ⟨fuel, rfl⟩ := Nat.exists_eq_add_one_of_ne_zero (n := fuel) (by
      simp only [renderAt, List.length_cons] at hf; omega)
    simp only [renderAt, List.cons_append, List.nil_append, readValue,
      skipSpace_cons (c := '[') rfl, skipSpace_cons (c := ']') rfl]
  | cons x xs =>
    simp only [renderAt, List.cons_append, List.append_assoc, List.length_cons,
      List.length_append] at hf ⊢
    obtain ⟨fuel, rfl⟩ := Nat.exists_eq_add_one_of_ne_zero (by omega : fuel ≠ 0)
    refine readValue_arr ?_
    rw [readItems_blanks isSpace_of_mem_gap]
    exact readItems_render xs x h fuel rest (by omega)

theorem readValue_space (fuel d : Nat) (cs : List Char) :
    readValue fuel d (' ' :: cs) = readValue fuel d cs :=
  readValue_blanks (by simp [isSpace] : ∀ c ∈ [' '], isSpace c) fuel d cs

theorem readMembers_last {fuel : Nat} {cs tail rest : List Char} {x : Json} (s : String)
    (hx : readValue fuel d cs = .ok (x, tail)) (ht : skipSpace tail = '\x7d' :: rest) :
    readMembers (fuel + 1) d (renderText s ++ ':' :: ' ' :: cs) = .ok ([(s, x)], rest) := by
  simp only [renderText, List.cons_append, List.append_assoc, List.nil_append, readMembers,
    skipSpace_cons (c := '"') rfl, readText, text_renderText, ok_bind,
    skipSpace_cons (c := ':') rfl, readValue_space, hx, ht]
  rfl

theorem readMembers_more {fuel : Nat} {cs tail rest : List Char} {x : Json}
    {ms : List (String × Json)} (s : String) (hx : readValue fuel d cs = .ok (x, ',' :: tail))
    (hm : readMembers fuel d tail = .ok (ms, rest)) :
    readMembers (fuel + 1) d (renderText s ++ ':' :: ' ' :: cs) = .ok ((s, x) :: ms, rest) := by
  simp only [renderText, List.cons_append, List.append_assoc, List.nil_append, readMembers,
    skipSpace_cons (c := '"') rfl, readText, text_renderText, ok_bind,
    skipSpace_cons (c := ':') rfl, readValue_space, hx, skipSpace_cons (c := ',') rfl, hm]
  rfl

theorem readMembers_render {lay : Layout} {depth outer : Nat} (ms : List (String × Json)) :
    ∀ (m : String × Json), (∀ m' ∈ m :: ms, Reads d m'.2) → ∀ (fuel : Nat) (rest : List Char),
      (renderAt lay depth m.2).length + (renderMembers lay depth ms).length < fuel →
      readMembers fuel d (renderText m.1 ++ (':' :: ' ' :: (renderAt lay depth m.2 ++
        (renderMembers lay depth ms ++ (lay.gap outer ++ '\x7d' :: rest))))) =
        .ok (m :: ms, rest) := by
  induction ms with
  | nil =>
    intro m hm fuel rest hf
    obtain ⟨fuel, rfl⟩ := Nat.exists_eq_add_one_of_ne_zero (by omega : fuel ≠ 0)
    have hend : Closed (lay.gap outer ++ '\x7d' :: rest) :=
      closed_gap_append lay outer (closed_cons (by simp))
    rw [renderMembers, List.nil_append]
    refine readMembers_last m.1 (hm m (by simp) lay depth fuel _ (by omega) hend) ?_
    rw [skipSpace_append isSpace_of_mem_gap, skipSpace_cons rfl]
  | cons m' ms ih =>
    intro m hm fuel rest hf
    obtain ⟨fuel, rfl⟩ := Nat.exists_eq_add_one_of_ne_zero (by omega : fuel ≠ 0)
    obtain ⟨ws, hws, hblank⟩ := exists_comma lay depth
    simp only [renderMembers, hws, List.length_append, List.length_cons] at hf
    have hrest := ih m' (fun z hz => hm z (List.mem_cons_of_mem _ hz)) fuel rest (by omega)
    simp only [renderMembers, hws, List.append_assoc, List.cons_append, List.nil_append]
    refine readMembers_more m.1 (hm m (by simp) lay depth fuel _ (by omega)
      (closed_cons (by simp))) ?_
    rw [readMembers_blanks hblank, hrest]

theorem reads_obj {ms : List (String × Json)} (hk : (ms.map Prod.fst).Nodup)
    (h : ∀ m ∈ ms, Reads d m.2) : Reads (d + 1) (obj ms) := by
  intro lay depth fuel rest hf _
  cases ms with
  | nil =>
    obtain ⟨fuel, rfl⟩ := Nat.exists_eq_add_one_of_ne_zero (n := fuel) (by
      simp only [renderAt, List.length_cons] at hf; omega)
    simp only [renderAt, List.cons_append, List.nil_append, readValue,
      skipSpace_cons (c := '\x7b') rfl, skipSpace_cons (c := '\x7d') rfl]
  | cons m ms =>
    simp only [renderAt, List.cons_append, List.append_assoc, List.nil_append, List.length_cons,
      List.length_append] at hf ⊢
    obtain ⟨fuel, rfl⟩ := Nat.exists_eq_add_one_of_ne_zero (by omega : fuel ≠ 0)
    rw [← ofMembers_of_nodup hk]
    refine readValue_obj ?_
    rw [readMembers_blanks isSpace_of_mem_gap]
    exact readMembers_render ms m h fuel rest (by omega)

/-- **Every plain value with short integers is read back from its text**, in either layout. -/
theorem Plain.reads (h : Plain Short d j) : Reads d j := by
  induction h with
  | null => exact reads_null
  | bool b => exact reads_bool b
  | int hn => exact reads_int hn
  | str s => exact reads_str s
  | arr _ ih => exact reads_arr ih
  | obj hk _ ih => exact reads_obj hk ih

theorem read_render (h : Plain Short d j) (lay : Layout) : read d (render lay j) = .ok j := by
  have hread := h.reads lay 0 (2 * (renderAt lay 0 j).length + 2) [] (by omega) closed_nil
  rw [List.append_nil] at hread
  simp only [read, render, String.toList_ofList, hread]
  rfl

/-- **What is written is read back** if the bound of the reader is not below the value. -/
theorem read_of_write {lay : Layout} {s : String} (h : Plain p d j) (hw : j.write e lay = .ok s) :
    read d s = .ok j := by
  obtain ⟨hflaw, rfl⟩ := write_eq_ok_iff.1 hw
  exact read_render (h.short_of_flaw? hflaw) lay

end DeclGraph.Json
