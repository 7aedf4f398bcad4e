/-
  Reading back the octets of a text.
-/
import DeclGraph.Text.Utf8

namespace DeclGraph.Utf8

theorem toNat_ofNat {n : Nat} (h : n < 256) : (UInt8.ofNat n).toNat = n := by
  rw [UInt8.toNat_ofNat']; omega

/-! ## Steps -/

theorem run_first {n : Nat} {s : State} (hn : n < 256) (h : first n = (s, [])) (bs : Octets) :
    run .between (UInt8.ofNat n :: bs) = run s bs := by
  simp only [run, step, toNat_ofNat hn, h, List.nil_append]

theorem run_more {later lo hi value n : Nat} (h : lo ≤ n ∧ n ≤ hi) (hn : n < 256) (bs : Octets) :
    run (.inside (later + 1) lo hi value) (UInt8.ofNat n :: bs) =
      run (.inside later 0x80 0xbf (value * 64 + n % 64)) bs := by
  simp only [run, step, toNat_ofNat hn, if_pos h, List.nil_append]

theorem run_last {lo hi value n : Nat} (h : lo ≤ n ∧ n ≤ hi) (hn : n < 256) (bs : Octets) :
    run (.inside 0 lo hi value) (UInt8.ofNat n :: bs) =
      some (Char.ofNat (value * 64 + n % 64)) :: run .between bs := by
  simp only [run, step, toNat_ofNat hn, if_pos h, List.cons_append, List.nil_append]

/-! ## Characters -/

theorem first_two {n : Nat} (h : 0xc2 ≤ n ∧ n < 0xe0) :
    first n = (.inside 0 0x80 0xbf (n % 32), []) := by
  rw [first, if_neg (by omega), if_neg (by omega), if_pos h.2]

/-- After the first octet of three, the next one tells apart the characters of
    two octets and the surrogates. -/
theorem first_three {n : Nat} (h : 0xe0 ≤ n ∧ n < 0xf0) :
    ∃ lo hi, first n = (.inside 1 lo hi (n % 16), []) ∧ 0x80 ≤ lo ∧ hi ≤ 0xbf ∧
      (lo ≤ 0x80 ∨ n = 0xe0 ∧ lo = 0xa0) ∧ (0xbf ≤ hi ∨ n = 0xed ∧ hi = 0x9f) := by
  by_cases h₁ : n = 0xe0
  · subst h₁; exact ⟨_, _, rfl, by simp⟩
  by_cases h₂ : n = 0xed
  · subst h₂; exact ⟨_, _, rfl, by simp⟩
  refine ⟨0x80, 0xbf, ?_, by simp⟩
  rw [first, if_neg (by omega), if_neg (by omega), if_neg (by omega), if_neg h₁, if_neg h₂,
    if_pos h.2]

theorem first_four {n : Nat} (h : 0xf0 ≤ n ∧ n ≤ 0xf4) :
    ∃ lo hi, first n = (.inside 2 lo hi (n % 8), []) ∧ 0x80 ≤ lo ∧ hi ≤ 0xbf ∧
      (lo ≤ 0x80 ∨ n = 0xf0 ∧ lo = 0x90) ∧ (0xbf ≤ hi ∨ n = 0xf4 ∧ hi = 0x8f) := by
  by_cases h₁ : n = 0xf0
  · subst h₁; exact ⟨_, _, rfl, by simp⟩
  by_cases h₂ : n = 0xf4
  · subst h₂; exact ⟨_, _, rfl, by simp⟩
  refine ⟨0x80, 0xbf, ?_, by simp⟩
  rw [first, if_neg (by omega), if_neg (by omega), if_neg (by omega), if_neg (by omega),
    if_neg (by omega), if_neg (by omega), if_neg h₁, if_pos (by omega)]

theorem run_encodeChar (c : Char) (bs : Octets) :
    run .between (encodeChar c ++ bs) = some c :: run .between bs := by
  have hvalid : c.toNat < 0xd800 ∨ 0xdfff < c.toNat ∧ c.toNat < 0x110000 := c.valid
  have hc : Char.ofNat c.toNat = c := Char.ofNat_toNat c
  obtain ⟨n, hn⟩ : ∃ n, c.toNat = n := ⟨_, rfl⟩
  rw [hn] at hvalid hc
  unfold encodeChar
  simp only [hn]
  split
  · rename_i h
    simp only [List.cons_append, List.nil_append, run, step, toNat_ofNat (n := n) (by omega), first,
      if_pos h, hc]
  split
  · rename_i h
    rw [List.cons_append, List.cons_append, List.nil_append,
      run_first (by omega) (first_two (by omega)), run_last (by omega) (by omega)]
    rw [show (0xc0 + n / 0x40) % 32 * 64 + (0x80 + n / 1 % 64) % 64 = n by omega, hc]
  split
  · rename_i h
    obtain ⟨lo, hi, hfirst, hlo, hhi, hlo', hhi'⟩ := first_three (n := 0xe0 + n / 0x1000) (by omega)
    rw [List.cons_append, List.cons_append, List.cons_append, List.nil_append,
      run_first (by omega) hfirst, run_more (by omega) (by omega), run_last (by omega) (by omega)]
    rw [show ((0xe0 + n / 0x1000) % 16 * 64 + (0x80 + n / 0x40 % 64) % 64) * 64 +
      (0x80 + n / 1 % 64) % 64 = n by omega, hc]
  · obtain ⟨lo, hi, hfirst, hlo, hhi, hlo', hhi'⟩ := first_four (n := 0xf0 + n / 0x40000) (by omega)
    rw [List.cons_append, List.cons_append, List.cons_append, List.cons_append, List.nil_append,
      run_first (by omega) hfirst, run_more (by omega) (by omega), run_more (by omega) (by omega),
      run_last (by omega) (by omega)]
    rw [show (((0xf0 + n / 0x40000) % 8 * 64 + (0x80 + n / 0x1000 % 64) % 64) * 64 +
      (0x80 + n / 0x40 % 64) % 64) * 64 + (0x80 + n / 1 % 64) % 64 = n by omega, hc]

/-! ## Texts -/

theorem run_encode (cs : List Char) :
    run .between (cs.flatMap encodeChar) = cs.map some := by
  induction cs with
  | nil => rfl
  | cons c cs ih => rw [List.flatMap_cons, run_encodeChar, ih, List.map_cons]

/-- **Every text is read back from its octets.** -/
theorem decode?_encode (s : String) : decode? (encode s) = some s := by
  have hmap (cs : List Char) : (cs.map some).mapM id = some cs := by
    induction cs with
    | nil => rfl
    | cons c cs ih => simp [ih]
  rw [decode?, encode, run_encode, hmap, Option.map_some, String.ofList_toList]

end DeclGraph.Utf8
