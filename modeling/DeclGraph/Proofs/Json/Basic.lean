/-
  Reading parts of JSON values.
-/
import DeclGraph.Proofs.Table
import DeclGraph.Symbol.Codec

namespace DeclGraph.Json

/-! ## Texts -/

theorem text?_eq_some {j : Json} {s : String} : j.text? = some s ↔ j = .str s := by
  cases j <;> simp [text?]

theorem isText_iff {j : Json} {s : String} : j.isText s ↔ j = .str s := beq_iff_eq

theorem nonEmptyText?_eq_some {j : Json} {s : String} :
    j.nonEmptyText? = some s ↔ j = .str s ∧ s ≠ "" := by
  cases j with
  | str t =>
    rw [nonEmptyText?, Json.str.injEq]
    by_cases h : t = ""
    · rw [if_pos h]
      exact ⟨nofun, fun ⟨hs, hne⟩ => absurd (hs ▸ h) hne⟩
    · rw [if_neg h, Option.some.injEq]
      exact ⟨fun hs => ⟨hs, hs ▸ h⟩, And.left⟩
  | _ => simp [nonEmptyText?]

/-! ## Lists and objects -/

theorem listedOrNone_arr (items : List Json) : (arr items).listedOrNone = .ok items := by
  cases items <;> rfl

/-- A value that counts as present and lists nothing: `true`, or a number other than
    zero. -/
def Unlistable : Json → Prop
  | .bool b => b = true
  | .int n => n ≠ 0
  | .float x => x.isZero = false
  | _ => False

theorem exists_listedOrNone_iff {j : Json} :
    (∃ items, j.listedOrNone = .ok items) ↔ ¬ j.Unlistable := by
  rw [listedOrNone]
  cases j with
  | null => simp [truthy, Unlistable]
  | bool b => cases b <;> simp [truthy, listed, Unlistable]
  | int n => by_cases h : n = 0 <;> simp [truthy, listed, Unlistable, h]
  | float x => cases h : x.isZero <;> simp [truthy, listed, Unlistable, h]
  | str s => by_cases h : s = "" <;> simp [truthy, listed, Unlistable, h]
  | arr items => cases items <;> simp [truthy, listed, Unlistable]
  | obj ms => cases ms <;> simp [truthy, listed, Unlistable]

theorem membersOrNone_obj (ms : List (String × Json)) : (obj ms).membersOrNone = .ok ms := by
  cases ms <;> rfl

theorem members_eq_ok {j : Json} {ms : List (String × Json)} :
    j.members = .ok ms ↔ j = .obj ms := by
  cases j <;> simp [members]

/-- The value of a key of an object. -/
def valueAt (key : String) : Json → Json
  | .obj ms => memberOrNull key ms
  | _ => .null

@[simp] theorem valueAt_obj (key : String) (ms : List (String × Json)) :
    (obj ms).valueAt key = memberOrNull key ms := rfl

theorem valueAt_of_membersOrNone {j : Json} {ms : List (String × Json)}
    (h : j.membersOrNone = .ok ms) (key : String) : j.valueAt key = memberOrNull key ms := by
  unfold membersOrNone at h
  split at h
  · obtain rfl := members_eq_ok.1 h
    rfl
  · rename_i ht
    rw [← Except.ok.inj h]
    cases j with
    | obj ms' => cases ms' with
      | nil => rfl
      | cons m ms' => exact absurd rfl ht
    | _ => rfl

theorem valueAt_of_required {key : String} {ms : List (String × Json)} {j : Json}
    (h : required key ms = .ok j) : (obj ms).valueAt key = j := by
  unfold required at h
  split at h
  · rename_i hmember
    rw [valueAt_obj, memberOrNull, hmember, Option.getD_some, Except.ok.inj h]
  · cases h

theorem isSome_member? {key : String} {ms : List (String × Json)} :
    (member? key ms).isSome ↔ key ∈ ms.map Prod.fst := by
  rw [member?, List.lookup_isSome_iff]
  simp

theorem memberOrNull_present {key : String} {ms : List (String × Json)}
    (h : (ms.map Prod.fst).Nodup) :
    memberOrNull key (present ms) = memberOrNull key ms := by
  have hp : ((present ms).map Prod.fst).Nodup := h.sublist (List.filter_sublist.map _)
  have hmem {x : Json} : (key, x) ∈ present ms ↔ (key, x) ∈ ms ∧ x ≠ null := by
    simp [present]
  have hpres {x : Json} : (present ms).lookup key = some x ↔ (key, x) ∈ ms ∧ x ≠ null :=
    (Table.lookup_eq_some_iff_mem hp).trans hmem
  unfold memberOrNull member?
  cases hl : ms.lookup key with
  | none =>
    cases hl' : (present ms).lookup key with
    | none => rfl
    | some x =>
      have := (Table.lookup_eq_some_iff_mem h).2 (hpres.1 hl').1
      rw [hl] at this; cases this
  | some x =>
    by_cases hx : x = null
    · subst hx
      cases hl' : (present ms).lookup key with
      | none => rfl
      | some y =>
        obtain ⟨hy, hne⟩ := hpres.1 hl'
        rw [(Table.lookup_eq_some_iff_mem h).2 hy] at hl
        exact Option.some.inj hl
    · rw [hpres.2 ⟨(Table.lookup_eq_some_iff_mem h).1 hl, hx⟩]

end DeclGraph.Json
