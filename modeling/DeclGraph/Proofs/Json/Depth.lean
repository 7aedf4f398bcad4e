/-
  Reading back values that are too deep.

  * `read_render_eq`: a plain value with short integers is read back from its text exactly if it is
    not higher than the bound of the reader; else the reader stops, and says why.
-/
import DeclGraph.Proofs.Json.RoundTrip

namespace DeclGraph.Json

variable {p : Int → Prop} {d e : Nat} {j : Json}

/-! ## Heights -/

theorem height_le_heightOfItems {xs : List Json} (h : j ∈ xs) : height j ≤ heightOfItems xs := by
  induction xs with
  | nil => cases h
  | cons x xs ih =>
    rw [heightOfItems]
    rcases List.mem_cons.1 h with rfl | h
    · exact Nat.le_max_left _ _
    · exact Nat.le_trans (ih h) (Nat.le_max_right _ _)

theorem height_le_heightOfMembers {ms : List (String × Json)} {m : String × Json} (h : m ∈ ms) :
    height m.2 ≤ heightOfMembers ms := by
  induction ms with
  | nil => cases h
  | cons n ms ih =>
    rw [heightOfMembers]
    rcases List.mem_cons.1 h with rfl | h
    · exact Nat.le_max_left _ _
    · exact Nat.le_trans (ih h) (Nat.le_max_right _ _)

/-- A plain value is as deep as it is high. -/
theorem Plain.of_height (h : Plain p e j) (hd : height j ≤ d) : Plain p d j := by
  induction h generalizing d with
  | null => exact .null
  | bool b => exact .bool b
  | int hn => exact .int hn
  | str s => exact .str s
  | arr _ ih =>
    rw [height] at hd
    obtain ⟨d, rfl⟩ := Nat.exists_eq_add_one_of_ne_zero (by omega : d ≠ 0)
    exact .arr fun x hx => ih x hx (by have := height_le_heightOfItems hx; omega)
  | obj hk _ ih =>
    rw [height] at hd
    obtain ⟨d, rfl⟩ := Nat.exists_eq_add_one_of_ne_zero (by omega : d ≠ 0)
    exact .obj hk fun m hm => ih m hm (by have := height_le_heightOfMembers hm; omega)

/-! ## Values that are too deep -/

/-- The reader stops in the text of a value that is higher than its bound. -/
def Stops (j : Json) : Prop :=
  ∀ (d : Nat) (lay : Layout) (depth fuel : Nat) (rest : List Char), d < height j →
    (renderAt lay depth j).length ≤ fuel → Closed rest →
      readValue fuel d (renderAt lay depth j ++ rest) = .error .tooDeep

theorem readItems_error {fuel : Nat} {cs : List Char} {flaw : Unread}
    (h : readValue fuel d cs = .error flaw) : readItems (fuel + 1) d cs = .error flaw := by
  rw [readItems, h]
  rfl

theorem readItems_more_error {fuel : Nat} {cs tail : List Char} {x : Json} {flaw : Unread}
    (hx : readValue fuel d cs = .ok (x, ',' :: tail))
    (hm : readItems fuel d tail = .error flaw) : readItems (fuel + 1) d cs = .error flaw := by
  simp only [readItems, hx, skipSpace_cons (c := ',') rfl, hm, ok_bind]
  rfl

theorem readItems_stops {lay : Layout} {depth outer : Nat} (xs : List Json) :
    ∀ (x : Json), (∀ y ∈ x :: xs, Plain Short e y ∧ Stops y) → d < heightOfItems (x :: xs) →
      ∀ (fuel : Nat) (rest : List Char),
      (renderAt lay depth x).length + (renderItems lay depth xs).length < fuel →
      readItems fuel d (renderAt lay depth x ++ (renderItems lay depth xs ++
        (lay.gap outer ++ ']' :: rest))) = .error .tooDeep := by
  induction xs with
  | nil =>
    intro x hx hd fuel rest hf
    obtain ⟨fuel, rfl⟩ := Nat.exists_eq_add_one_of_ne_zero (by omega : fuel ≠ 0)
    have hend : Closed (lay.gap outer ++ ']' :: rest) :=
      closed_gap_append lay outer (closed_cons (by simp))
    rw [renderItems, List.nil_append]
    rw [heightOfItems, heightOfItems, Nat.max_zero] at hd
    exact readItems_error ((hx x (by simp)).2 d lay depth fuel _ hd (by omega) hend)
  | cons y ys ih =>
    intro x hx hd fuel rest hf
    obtain ⟨fuel, rfl⟩ := Nat.exists_eq_add_one_of_ne_zero (by omega : fuel ≠ 0)
    obtain ⟨ws, hws, hblank⟩ := exists_comma lay depth
    simp only [renderItems, hws, List.length_append, List.length_cons] at hf
    simp only [renderItems, hws, List.append_assoc, List.cons_append]
    have hend (cs : List Char) : Closed (',' :: cs) := closed_cons (by simp)
    by_cases hdeep : d < height x
    · exact readItems_error ((hx x (by simp)).2 d lay depth fuel _ hdeep (by omega) (hend _))
    · -- the first item is read, and so it is a later one that is too deep
      rw [heightOfItems] at hd
      have hread := ((hx x (by simp)).1.of_height (Nat.not_lt.1 hdeep)).reads
      refine readItems_more_error (hread lay depth fuel _ (by omega) (hend _)) ?_
      rw [readItems_blanks hblank]
      exact ih y (fun z hz => hx z (List.mem_cons_of_mem _ hz)) (by omega) fuel rest (by omega)

theorem readValue_arr_error {fuel : Nat} {cs : List Char}
    (h : readItems fuel d cs = .error .tooDeep) :
    readValue (fuel + 1) (d + 1) ('[' :: cs) = .error .tooDeep := by
  rw [readValue, skipSpace_cons rfl]
  simp only
  rw [← readItems_skipSpace] at h
  split
  · rename_i heq
    cases fuel with
    | zero => cases h
    | succ fuel =>
      have hnone (cs : List Char) : readValue fuel d (']' :: cs) = .error .malformed := by
        cases fuel <;> rfl
      rw [heq, readItems, hnone] at h
      cases h
  · rw [h]; rfl

theorem stops_arr {items : List Json} (h : ∀ x ∈ items, Plain Short e x ∧ Stops x) :
    Stops (arr items) := by
  intro d lay depth fuel rest hd hf _
  cases items with
  | nil =>
    obtain ⟨fuel, rfl⟩ := Nat.exists_eq_add_one_of_ne_zero (n := fuel) (by
      simp only [renderAt, List.length_cons] at hf; omega)
    obtain rfl : d = 0 := by rw [height, heightOfItems] at hd; omega
    simp only [renderAt, List.cons_append, readValue, skipSpace_cons (c := '[') rfl]
  | cons x xs =>
    simp only [renderAt, List.cons_append, List.append_assoc, List.length_cons,
      List.length_append] at hf ⊢
    obtain ⟨fuel, rfl⟩ := Nat.exists_eq_add_one_of_ne_zero (by omega : fuel ≠ 0)
    cases d with
    | zero => simp only [readValue, skipSpace_cons (c := '[') rfl]
    | succ d =>
      rw [height] at hd
      refine readValue_arr_error ?_
      rw [readItems_blanks isSpace_of_mem_gap]
      exact readItems_stops xs x h (by omega) fuel rest (by omega)

theorem readMembers_error {fuel : Nat} {cs : List Char} {flaw : Unread} (s : String)
    (h : readValue fuel d cs = .error flaw) :
    readMembers (fuel + 1) d (renderText s ++ ':' :: ' ' :: cs) = .error flaw := by
  simp only [renderText, List.cons_append, List.append_assoc, List.nil_append, readMembers,
    skipSpace_cons (c := '"') rfl, readText, text_renderText, ok_bind,
    skipSpace_cons (c := ':') rfl, readValue_space, h]
  rfl

theorem readMembers_more_error {fuel : Nat} {cs tail : List Char} {x : Json} {flaw : Unread}
    (s : String) (hx : readValue fuel d cs = .ok (x, ',' :: tail))
    (hm : readMembers fuel d tail = .error flaw) :
    readMembers (fuel + 1) d (renderText s ++ ':' :: ' ' :: cs) = .error flaw := by
  simp only [renderText, List.cons_append, List.append_assoc, List.nil_append, readMembers,
    skipSpace_cons (c := '"') rfl, readText, text_renderText, ok_bind,
    skipSpace_cons (c := ':') rfl, readValue_space, hx, skipSpace_cons (c := ',') rfl, hm]
  rfl

theorem readMembers_stops {lay : Layout} {depth outer : Nat} (ms : List (String × Json)) :
    ∀ (m : String × Json), (∀ m' ∈ m :: ms, Plain Short e m'.2 ∧ Stops m'.2) →
      d < heightOfMembers (m :: ms) → ∀ (fuel : Nat) (rest : List Char),
      (renderAt lay depth m.2).length + (renderMembers lay depth ms).length < fuel →
      readMembers fuel d (renderText m.1 ++ (':' :: ' ' :: (renderAt lay depth m.2 ++
        (renderMembers lay depth ms ++ (lay.gap outer ++ '\x7d' :: rest))))) =
        .error .tooDeep := by
  induction ms with
  | nil =>
    intro m hm hd fuel rest hf
    obtain ⟨fuel, rfl⟩ := Nat.exists_eq_add_one_of_ne_zero (by omega : fuel ≠ 0)
    have hend : Closed (lay.gap outer ++ '\x7d' :: rest) :=
      closed_gap_append lay outer (closed_cons (by simp))
    rw [renderMembers, List.nil_append]
    rw [heightOfMembers, heightOfMembers, Nat.max_zero] at hd
    exact readMembers_error m.1 ((hm m (by simp)).2 d lay depth fuel _ hd (by omega) hend)
  | cons m' ms ih =>
    intro m hm hd fuel rest hf
    obtain ⟨fuel, rfl⟩ := Nat.exists_eq_add_one_of_ne_zero (by omega : fuel ≠ 0)
    obtain ⟨ws, hws, hblank⟩ := exists_comma lay depth
    simp only [renderMembers, hws, List.length_append, List.length_cons] at hf
    simp only [renderMembers, hws, List.append_assoc, List.cons_append, List.nil_append]
    have hend (cs : List Char) : Closed (',' :: cs) := closed_cons (by simp)
    by_cases hdeep : d < height m.2
    · exact readMembers_error m.1
        ((hm m (by simp)).2 d lay depth fuel _ hdeep (by omega) (hend _))
    · rw [heightOfMembers] at hd
      have hread := ((hm m (by simp)).1.of_height (Nat.not_lt.1 hdeep)).reads
      refine readMembers_more_error m.1 (hread lay depth fuel _ (by omega) (hend _)) ?_
      rw [readMembers_blanks hblank]
      exact ih m' (fun z hz => hm z (List.mem_cons_of_mem _ hz)) (by omega) fuel rest (by omega)

theorem readValue_obj_error {fuel : Nat} {cs : List Char}
    (h : readMembers fuel d cs = .error .tooDeep) :
    readValue (fuel + 1) (d + 1) ('\x7b' :: cs) = .error .tooDeep := by
  rw [readValue, skipSpace_cons rfl]
  simp only
  rw [← readMembers_skipSpace] at h
  split
  · rename_i heq
    rw [heq] at h
    cases fuel <;> simp [readMembers, skipSpace_cons (c := '\x7d') rfl] at h
    cases h
  · rw [h]; rfl

theorem stops_obj {ms : List (String × Json)} (h : ∀ m ∈ ms, Plain Short e m.2 ∧ Stops m.2) :
    Stops (obj ms) := by
  intro d lay depth fuel rest hd hf _
  cases ms with
  | nil =>
    obtain ⟨fuel, rfl⟩ := Nat.exists_eq_add_one_of_ne_zero (n := fuel) (by
      simp only [renderAt, List.length_cons] at hf; omega)
    obtain rfl : d = 0 := by rw [height, heightOfMembers] at hd; omega
    simp only [renderAt, List.cons_append, readValue, skipSpace_cons (c := '\x7b') rfl]
  | cons m ms =>
    simp only [renderAt, List.cons_append, List.append_assoc, List.nil_append, List.length_cons,
      List.length_append] at hf ⊢
    obtain ⟨fuel, rfl⟩ := Nat.exists_eq_add_one_of_ne_zero (by omega : fuel ≠ 0)
    cases d with
    | zero => simp only [readValue, skipSpace_cons (c := '\x7b') rfl]
    | succ d =>
      rw [height] at hd
      refine readValue_obj_error ?_
      rw [readMembers_blanks isSpace_of_mem_gap]
      exact readMembers_stops ms m h (by omega) fuel rest (by omega)

/-- **In the text of a value that is higher than its bound the reader stops.** -/
theorem Plain.stops (h : Plain Short e j) : Stops j := by
  induction h with
  | null | bool | int | str => exact fun _ _ _ _ _ hd => absurd hd (Nat.not_lt_zero _)
  | arr h ih => exact stops_arr fun x hx => ⟨h x hx, ih x hx⟩
  | obj _ h ih => exact stops_obj fun m hm => ⟨h m hm, ih m hm⟩

/-- **What is written is read back exactly if it is not too high** for the reader. -/
theorem read_render_eq (h : Plain Short e j) (d : Nat) (lay : Layout) :
    read d (render lay j) = if height j ≤ d then .ok j else .error .tooDeep := by
  split
  · rename_i hd
    exact read_render (h.of_height hd) lay
  · rename_i hd
    have hstop := h.stops d lay 0 (2 * (renderAt lay 0 j).length + 2) [] (Nat.not_le.1 hd)
      (by omega) closed_nil
    rw [List.append_nil] at hstop
    simp only [read, render, String.toList_ofList, hstop]

/-! ## Lists in one another -/

/-- Lists in one another, `n` of them around the innermost one. -/
def nested : Nat → Json
  | 0 => .arr []
  | n + 1 => .arr [nested n]

theorem height_nested (n : Nat) : height (nested n) = n + 1 := by
  induction n with
  | zero => rfl
  | succ n ih => rw [nested, height, heightOfItems, heightOfItems, ih, Nat.max_zero]

theorem plain_nested (n : Nat) : Plain p (n + 1) (nested n) := by
  induction n with
  | zero => exact .arr (List.forall_mem_nil _)
  | succ n ih => exact .arr (List.forall_mem_singleton.2 ih)

end DeclGraph.Json
