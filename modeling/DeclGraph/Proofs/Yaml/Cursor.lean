/-
  Places in a YAML text.

  A scalar that is continued on another line goes on after two spaces.

  * `Before`: a place inside of a line, before a text;
  * `quotedGap?_spaces` and `quotedGap?_breaks`: the blanks inside a quoted scalar.
-/
import DeclGraph.Yaml.Writer
import Mathlib.Data.List.TakeWhile

namespace DeclGraph.Yaml

/-! ## Characters -/

-- goes through the list, not through all characters
instance (priority := high) decidableForallMem {α : Type} (xs : List α) (p : α → Prop)
    [DecidablePred p] : Decidable (∀ x ∈ xs, p x) :=
  List.decidableBAll p xs

instance (priority := high) decidableForallMemOption {α : Type} (o : Option α) (p : α → Prop)
    [DecidablePred p] : Decidable (∀ x ∈ o, p x) :=
  Option.decidableForallMem o

/-- A character that can be shown, the space included. -/
def Printable (c : Char) : Prop := 0x20 ≤ c.toNat ∧ c.toNat ≤ 0x7e

instance (c : Char) : Decidable (Printable c) := inferInstanceAs (Decidable (_ ∧ _))

theorem isBreak_iff {c : Char} :
    isBreak c = true ↔ c ∈ ['\n', '\r', '\u0085', '\u2028', '\u2029'] := by
  rw [isBreak, List.contains_iff_mem]

theorem Printable.isBreak {c : Char} (h : Printable c) : isBreak c = false := by
  rw [Bool.eq_false_iff, ne_eq, isBreak_iff]
  intro hc
  simp only [List.mem_cons, List.not_mem_nil, or_false] at hc
  rcases hc with rfl | rfl | rfl | rfl | rfl <;> exact absurd h (by decide)

theorem Printable.isGap {c : Char} (h : Printable c) (hspace : c ≠ ' ') : isGap c = false := by
  have htab : c ≠ '\t' := by rintro rfl; exact absurd h (by decide)
  have hnul : c ≠ '\x00' := by rintro rfl; exact absurd h (by decide)
  simp [Yaml.isGap, h.isBreak, hspace, htab, hnul]

/-- Whether a text consists of printable characters and line feeds. -/
def Legible (w : List Char) : Prop := ∀ x ∈ w, x = '\n' ∨ Printable x

instance (w : List Char) : Decidable (Legible w) := inferInstanceAs (Decidable (∀ x ∈ w, _))

theorem legible_nil : Legible [] := nofun

theorem Legible.append {u v : List Char} (hu : Legible u) (hv : Legible v) : Legible (u ++ v) :=
  fun x hx => (List.mem_append.1 hx).elim (hu x) (hv x)

theorem Legible.cons {x : Char} {v : List Char} (hx : x = '\n' ∨ Printable x) (hv : Legible v) :
    Legible (x :: v) :=
  List.forall_mem_cons.2 ⟨hx, hv⟩

theorem legible_replicate {x : Char} (hx : x = '\n' ∨ Printable x) (n : Nat) :
    Legible (List.replicate n x) := by
  intro y hy
  rwa [(List.mem_replicate.1 hy).2]

theorem isAllowed_of_legible {x : Char} (h : x = '\n' ∨ Printable x) : isAllowed x = true := by
  rcases h with rfl | h
  · decide
  · simp [isAllowed, h.1, h.2]

/-! ## Places -/

namespace Cursor

/-- A place inside of a line, before a text. -/
structure Before (c : Cursor) (cs : List Char) : Prop where
  rest_eq : c.rest = cs
  column_pos : 0 < c.column

variable {c : Cursor}

theorem Before.forward {cs : List Char} (h : c.Before cs) (n : Nat) :
    (c.forward n).Before (cs.drop n) where
  rest_eq := congrArg (List.drop n) h.rest_eq
  column_pos := Nat.lt_of_lt_of_le h.column_pos (Nat.le_add_right _ _)

theorem Before.forward_append {cs rest : List Char} (h : c.Before (cs ++ rest)) :
    (c.forward cs.length).Before rest := by
  have hforward := h.forward cs.length
  rwa [List.drop_left] at hforward

theorem newline_eq {x : Char} {xs : List Char} (h : c.rest = x :: xs) :
    c.newline = ⟨xs, c.line + 1, 0, true⟩ := by
  rw [newline, h]

/-- No document ends before a character that does not begin the mark of an end. -/
theorem atEnd_eq_false {x : Char} {xs : List Char} (h : c.rest = x :: xs) (hx : x ≠ '-')
    (hx' : x ≠ '.') : c.atEnd = false := by
  have hdash : ("---".toList.isPrefixOf (x :: xs)) = false := by
    simp [List.isPrefixOf, hx.symm]
  have hdot : ("...".toList.isPrefixOf (x :: xs)) = false := by
    simp [List.isPrefixOf, hx'.symm]
  simp only [atEnd, h, List.isEmpty_cons, List.any_cons, List.any_nil, hdash, hdot,
    Bool.false_and, Bool.or_false, Bool.and_false]

end Cursor

/-! ## Blanks in quoted scalars -/

open Cursor

/-- A character that ends the blanks of a scalar. -/
def Solid (x : Char) : Prop := Printable x ∧ x ≠ ' '

theorem Solid.isGap {x : Char} (h : Solid x) : isGap x = false := h.1.isGap h.2

theorem Solid.isBreak {x : Char} (h : Solid x) : isBreak x = false := h.1.isBreak

theorem Solid.ne_tab {x : Char} (h : Solid x) : x ≠ '\t' := by
  rintro rfl
  exact absurd h.1 (by decide)

variable {c : Cursor} {x : Char} {rest : List Char}

theorem takeWhile_spaces (p : Char → Bool) (hspace : p ' ' = true) (hx : p x = false) (n : Nat)
    (rest : List Char) :
    (List.replicate n ' ' ++ x :: rest).takeWhile p = List.replicate n ' ' := by
  rw [List.takeWhile_append_of_pos, List.takeWhile_cons_of_neg (by simp [hx]), List.append_nil]
  intro a ha
  rw [(List.mem_replicate.1 ha).2, hspace]

/-- Spaces stand for themselves. -/
theorem quotedGap?_spaces (hx : Solid x) {n : Nat}
    (h : c.Before (List.replicate n ' ' ++ x :: rest)) :
    quotedGap? c = some (List.replicate n ' ', c.forward n) := by
  have hrest : (c.forward n).rest = x :: rest := by
    have hforward := h.forward_append.rest_eq
    rwa [List.length_replicate] at hforward
  have hblanks := takeWhile_spaces (fun ch => ch == ' ' || ch == '\t') (by rfl) (x := x)
    (by simp [hx.2, hx.ne_tab]) n rest
  simp only [quotedGap?, h.rest_eq, hblanks, List.length_replicate, hrest, hx.isBreak,
    Bool.false_eq_true, if_false]

theorem quotedBreaks?_space (h : c.rest = ' ' :: rest) (fuel : Nat) :
    quotedBreaks? (fuel + 1) c = quotedBreaks? fuel (c.forward 1) := by
  have hend : c.atEnd = false := atEnd_eq_false h (by decide) (by decide)
  rw [quotedBreaks?, hend, h]
  simp

/-- The start of the line on which a quoted scalar goes on. -/
def Cursor.resumed (c : Cursor) : Cursor := { c.newline with fresh := false }

theorem quotedBreaks?_break (h : c.rest = '\n' :: rest) (fuel : Nat) :
    quotedBreaks? (fuel + 1) c =
      (quotedBreaks? fuel c.resumed).map fun p => ('\n' :: p.1, p.2) := by
  have hend : c.atEnd = false := atEnd_eq_false h (by decide) (by decide)
  have hblank : ('\n' == ' ' || '\n' == '\t') = false := by decide
  have hbreak : isBreak '\n' = true := by decide
  rw [quotedBreaks?, hend, h]
  simp only [Bool.and_false, Bool.false_and, hblank, hbreak, Bool.false_eq_true, if_false, if_true]
  rfl

theorem quotedBreaks?_solid (hx : Solid x) (h : c.Before (x :: rest)) (fuel : Nat) :
    quotedBreaks? (fuel + 1) c = some ([], c) := by
  have hcolumn : (c.column == 0) = false := beq_eq_false_iff_ne.2 h.column_pos.ne'
  rw [quotedBreaks?, hcolumn, h.rest_eq]
  simp [hx.2, hx.ne_tab, hx.isBreak]

/-- What stands before the text of a further line. -/
def indentation : List Char := [' ', ' ']

theorem legible_indentation : Legible indentation := by decide

theorem quotedBreaks?_indentation (hx : Solid x) (h : c.rest = indentation ++ x :: rest)
    {fuel : Nat} (hfuel : 3 ≤ fuel) :
    ∃ c', quotedBreaks? fuel c = some ([], c') ∧ c'.Before (x :: rest) ∧ c'.fresh = false := by
  obtain ⟨fuel, rfl⟩ := Nat.exists_eq_add_of_le' hfuel
  have hbefore : ((c.forward 1).forward 1).Before (x :: rest) :=
    ⟨by rw [Cursor.forward, Cursor.forward, h]; rfl, Nat.succ_pos _⟩
  refine ⟨(c.forward 1).forward 1, ?_, hbefore, rfl⟩
  have hnext : (c.forward 1).rest = ' ' :: x :: rest := by
    rw [Cursor.forward, h]
    rfl
  rw [quotedBreaks?_space h, quotedBreaks?_space hnext, quotedBreaks?_solid hx hbefore]

theorem quotedBreaks?_breaks (hx : Solid x) (n : Nat) : ∀ {c : Cursor} {fuel : Nat},
    c.rest = List.replicate n '\n' ++ (indentation ++ x :: rest) → n + 3 ≤ fuel →
    ∃ c', quotedBreaks? fuel c = some (List.replicate n '\n', c') ∧ c'.Before (x :: rest) ∧
      c'.fresh = false := by
  induction n with
  | zero => exact fun h hfuel => quotedBreaks?_indentation hx h hfuel
  | succ n ih =>
    intro c fuel h hfuel
    obtain ⟨fuel, rfl⟩ : ∃ k, fuel = k + 1 := ⟨fuel - 1, by omega⟩
    have hnext : c.resumed.rest = List.replicate n '\n' ++ (indentation ++ x :: rest) := by
      rw [Cursor.resumed, Cursor.newline, h]
      rfl
    obtain ⟨c', hbreaks, hbefore⟩ := ih hnext (show n + 3 ≤ fuel by omega)
    refine ⟨c', ?_, hbefore⟩
    rw [quotedBreaks?_break h, hbreaks]
    rfl

/-- Several line breaks stand for all but the first, and a single one for a space. -/
theorem quotedGap?_breaks (hx : Solid x) (n : Nat)
    (h : c.Before (List.replicate (n + 1) '\n' ++ (indentation ++ x :: rest))) :
    ∃ c', quotedGap? c = some (foldBreaks (List.replicate (n + 1) '\n'), c') ∧
      c'.Before (x :: rest) ∧ c'.fresh = false := by
  have hstart : (c.forward 0).rest =
      List.replicate (n + 1) '\n' ++ (indentation ++ x :: rest) := h.rest_eq
  obtain ⟨c', hbreaks, hbefore⟩ := quotedBreaks?_breaks hx (n + 1) hstart
    (show n + 1 + 3 ≤ (c.forward 0).rest.length + 1 by rw [hstart]; simp [indentation]; omega)
  refine ⟨c', ?_, hbefore⟩
  have hbreak : isBreak '\n' = true := by decide
  have hblanks : c.rest.takeWhile (fun ch => ch == ' ' || ch == '\t') = [] := by
    rw [h.rest_eq]
    rfl
  rw [quotedGap?, hblanks]
  simp only [List.length_nil, hbreaks]
  rw [hstart]
  simp only [List.replicate_succ, List.cons_append, hbreak, if_true, Option.map_some]

end DeclGraph.Yaml
