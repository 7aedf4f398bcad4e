/-
  Reading back symbols and members.
-/
import DeclGraph.Proofs.Except
import DeclGraph.Proofs.Json.Basic

namespace DeclGraph

theorem Access.ofJson_name (a : Access) (default : Option Access) :
    ofJson (.str a.name) default = .ok (some a) := by
  cases a <;> rfl

theorem Access.ofJson_null (default : Option Access) : ofJson .null default = .ok default := rfl

/-! ## Symbols -/

namespace Symbol

/-- The optional parts of a symbol, with `null` for those that are missing. -/
def optionalMembers (s : Symbol) : List (String × Json) :=
  [("rawKind", s.rawKind), ("typeName", s.typeName), ("offset", s.offset),
    ("length", s.length), ("extendedType", s.extendedType)]

theorem memberOrNull_toMembers (s : Symbol) {key : String}
    (h : key ∉ ["name", "kind", "file", "inheritedTypes", "accessibility"]) :
    Json.memberOrNull key s.toMembers = Json.memberOrNull key s.optionalMembers := by
  have hp : ((s.optionalMembers).map Prod.fst).Nodup := by
    rw [show (s.optionalMembers).map Prod.fst =
      ["rawKind", "typeName", "offset", "length", "extendedType"] from rfl]
    decide
  have hnone : List.lookup key [("name", s.name), ("kind", .str s.kind.name), ("file", s.file),
      ("inheritedTypes", .arr s.inheritedTypes), ("accessibility", .str s.access.name)] = none := by
    simpa [List.lookup_eq_none_iff] using h
  rw [← Json.memberOrNull_present hp, Json.memberOrNull, Json.member?, toMembers,
    List.lookup_append, hnone, Option.none_or]
  rfl

/-- The tag of a symbol is either missing or does not count as missing. -/
def Rereadable (s : Symbol) : Prop := s.rawKind = .null ∨ s.rawKind.truthy

/-- A symbol as it is read back: a tag that does not count as present is lost. -/
def retagged (s : Symbol) : Symbol :=
  { s with rawKind := if s.rawKind.truthy then s.rawKind else .null }

theorem retagged_eq_self_iff {s : Symbol} : s.retagged = s ↔ s.Rereadable := by
  obtain ⟨name, kind, file, inheritedTypes, access, rawKind, _, _, _, _⟩ := s
  by_cases ht : rawKind.truthy
  · simp [retagged, Rereadable, ht]
  · simp [retagged, Rereadable, ht, eq_comm]

/-- **A symbol is read back**, whatever kind its place implies. -/
theorem ofJson_toJson_retagged (implied : Option SymbolKind) (s : Symbol) :
    ofJson implied s.toJson = .ok s.retagged := by
  have hkind : storedKind? (Json.memberOrNull "kind" s.toMembers) = .ok (some s.kind) := by
    rw [show Json.memberOrNull "kind" s.toMembers = .str s.kind.name from rfl]
    simp [storedKind?, Json.isCollection, Json.text?, SymbolKind.ofName?_name]
  have hinherited : (Json.memberOrNull "inheritedTypes" s.toMembers).listedOrNone =
      .ok s.inheritedTypes :=
    Json.listedOrNone_arr _
  have haccess : Access.ofJson (Json.memberOrNull "accessibility" s.toMembers) (some .internal) =
      .ok (some s.access) :=
    Access.ofJson_name s.access _
  have hname : Json.required "name" s.toMembers = .ok s.name := rfl
  have hfile : Json.member? "file" s.toMembers = some s.file := rfl
  have h₁ : Json.memberOrNull "rawKind" s.toMembers = s.rawKind :=
    memberOrNull_toMembers s (by decide)
  have h₂ : Json.memberOrNull "typeName" s.toMembers = s.typeName :=
    memberOrNull_toMembers s (by decide)
  have h₃ : Json.memberOrNull "offset" s.toMembers = s.offset :=
    memberOrNull_toMembers s (by decide)
  have h₄ : Json.memberOrNull "length" s.toMembers = s.length :=
    memberOrNull_toMembers s (by decide)
  have h₅ : Json.memberOrNull "extendedType" s.toMembers = s.extendedType :=
    memberOrNull_toMembers s (by decide)
  simp only [ofJson, toJson, Json.members, ok_bind, hkind, hname, hinherited,
    haccess, hfile, h₁, h₂, h₃, h₄, h₅, Option.getD_some, Option.isSome_some, if_true]
  rfl

end Symbol

/-! ## Members -/

/-- A member whose type is not written is the same as one without a type. -/
def Member.settled (m : Member) : Member :=
  { m with typeName := if m.typeName.truthy then m.typeName else .null }

/-- A member without a type. -/
def Member.untyped (m : Member) : Member := { m with typeName := .null }

namespace Member

theorem ofJson_toJson_some {key : String} (hk : key ≠ "name" ∧ key ≠ "access") (m : Member) :
    ofJson (some key) (toJson (some key) m) = .ok m.settled := by
  obtain ⟨name, typeName, access⟩ := m
  have h₁ : ("access" == key) = false := beq_eq_false_iff_ne.2 (Ne.symm hk.2)
  have h₂ : (key == "name") = false := beq_eq_false_iff_ne.2 hk.1
  have h₃ : (key == "access") = false := beq_eq_false_iff_ne.2 hk.2
  by_cases ht : typeName.truthy <;> cases access <;>
    simp [ofJson, toJson, settled, ht, Json.members, Json.required, Json.member?,
      Json.memberOrNull, List.lookup_cons, List.lookup_nil, h₁, h₂, h₃, Access.ofJson_null,
      Access.ofJson_name, pure, Except.pure]

theorem ofJson_toJson_none (m : Member) : ofJson none (toJson none m) = .ok m.untyped := by
  obtain ⟨name, typeName, access⟩ := m
  cases access <;>
    simp [ofJson, toJson, untyped, Json.members, Json.required, Json.member?, Json.memberOrNull,
      List.lookup_cons, List.lookup_nil, Access.ofJson_null, Access.ofJson_name, pure, Except.pure]

theorem toJson_settled (key : Option String) (m : Member) :
    toJson key m.settled = toJson key m := by
  by_cases ht : m.typeName.truthy
  · simp only [settled, if_pos ht]
  · simp only [toJson, settled, if_neg ht, show Json.null.truthy = false from rfl]
    rfl

theorem toJson_untyped (m : Member) : toJson none m.untyped = toJson none m := rfl

end Member

namespace MemberSet

/-- A member set in which no member has a type that is not written. -/
def settled (m : MemberSet) : MemberSet where
  properties := m.properties.map Member.settled
  methods := m.methods.map Member.settled
  initializers := m.initializers.map Member.untyped

/-- **A member set is read back** with every type that was written. -/
theorem ofJson_toJson (m : MemberSet) : ofJson m.toJson = .ok m.settled := by
  have hp := mapM_map_ok fun x (_ : x ∈ m.properties) =>
    Member.ofJson_toJson_some (by decide : "type" ≠ "name" ∧ "type" ≠ "access") x
  have hm := mapM_map_ok fun x (_ : x ∈ m.methods) =>
    Member.ofJson_toJson_some (by decide : "returnType" ≠ "name" ∧ "returnType" ≠ "access") x
  have hi := mapM_map_ok fun x (_ : x ∈ m.initializers) => Member.ofJson_toJson_none x
  simp only [ofJson, toJson, roles, List.map_cons, List.map_nil, Json.members, ok_bind,
    Json.member?, List.lookup_cons, String.reduceBEq, Option.getD_some, Json.listed, hp, hm, hi]
  rfl

theorem toJson_settled (m : MemberSet) : m.settled.toJson = m.toJson := by
  simp only [toJson, roles, settled, List.map_map, Function.comp_def, Member.toJson_settled,
    Member.toJson_untyped]

end MemberSet

/-! ## Tables and units -/

namespace SymbolTable

/-- The symbols of a table can be read back. -/
def Rereadable (t : SymbolTable) : Prop := ∀ k, ∀ s ∈ t.bucket k, s.Rereadable

theorem ofBucketsM_eq_ok {ε : Type} {f : SymbolKind → Except ε (List Symbol)} {t : SymbolTable} :
    ofBucketsM f = .ok t ↔ ∀ k, f k = .ok (t.bucket k) := by
  constructor
  · intro h
    simp only [ofBucketsM, bind_eq_ok] at h
    obtain ⟨cs, h₁, ss, h₂, ps, h₃, es, h₄, xs, h₅, fs, h₆, vs, h₇, h⟩ := h
    cases h
    intro k
    cases k <;> assumption
  · intro h
    simp only [ofBucketsM, h, ok_bind]
    refine congrArg Except.ok (SymbolTable.ext (funext fun k => ?_))
    cases k <;> rfl

/-- Changes every symbol of a table and keeps its place. -/
def mapSymbols (f : Symbol → Symbol) (t : SymbolTable) : SymbolTable :=
  ⟨fun k => (t.bucket k).map f⟩

theorem mapSymbols_eq_self_iff {f : Symbol → Symbol} {t : SymbolTable} :
    t.mapSymbols f = t ↔ ∀ k, ∀ s ∈ t.bucket k, f s = s := by
  rw [SymbolTable.ext_iff, funext_iff]
  exact forall_congr' fun k => map_eq_self_iff

theorem ofMembers_toJson_retagged (t : SymbolTable) :
    ofMembers (SymbolKind.all.map fun k => (k.bucket, .arr ((t.bucket k).map Symbol.toJson))) =
      .ok (t.mapSymbols Symbol.retagged) := by
  rw [ofMembers, ofBucketsM_eq_ok]
  intro k
  have hget : Json.memberOrNull k.bucket
      (SymbolKind.all.map fun k => (k.bucket, .arr ((t.bucket k).map Symbol.toJson))) =
      .arr ((t.bucket k).map Symbol.toJson) := by
    cases k <;> rfl
  rw [bucketOfJson, hget, Json.listedOrNone_arr, ok_bind]
  exact mapM_map_ok fun s _ => Symbol.ofJson_toJson_retagged (some k) s

end SymbolTable

namespace UnitData

/-- The data of a unit in which no member has a type that is not written. -/
def settled (u : UnitData) : UnitData := { u with members := u.members.map fun _ => .settled }

/-- The data of a unit as it is read back. -/
def retagged (u : UnitData) : UnitData :=
  { u.settled with symbols := u.symbols.mapSymbols Symbol.retagged }

theorem retagged_eq_settled {u : UnitData} (h : u.symbols.Rereadable) :
    u.retagged = u.settled := by
  have hsymbols : u.symbols.mapSymbols Symbol.retagged = u.symbols :=
    SymbolTable.mapSymbols_eq_self_iff.2 fun k s hs => Symbol.retagged_eq_self_iff.2 (h k s hs)
  rw [retagged, hsymbols]
  rfl

/-- **The data of a unit is read back** with every type of a member that was written, and
    every tag that counts as present. -/
theorem ofJson_toJson (u : UnitData) : ofJson u.toJson = .ok u.retagged := by
  have hsets :
      Table.mapValuesM MemberSet.ofJson (u.members.entries.map fun e => (e.1, e.2.toJson)) =
      .ok (u.settled.members.entries) :=
    mapValuesM_map_ok fun e _ => MemberSet.ofJson_toJson e.2
  have hdialect : Dialect.ofJson (.str u.dialect.name) = .ok u.dialect := by
    cases u.dialect <;> rfl
  simp only [ofJson, toJson, Json.members, ok_bind, Json.member?, Json.memberOrNull,
    List.lookup_cons, String.reduceBEq, Option.getD_some, hdialect, SymbolTable.toJson,
    Json.membersOrNone_obj, SymbolTable.ofMembers_toJson_retagged, Json.ofTable, hsets,
    Table.ofList_entries]
  rfl

theorem toJson_settled (u : UnitData) : u.settled.toJson = u.toJson := by
  simp only [toJson, settled, Json.ofTable, Table.map, List.map_map, Function.comp_def,
    MemberSet.toJson_settled]

end UnitData

end DeclGraph
