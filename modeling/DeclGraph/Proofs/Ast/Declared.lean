/-
  What holds of everything that extraction makes, whatever the dump holds.
-/
import DeclGraph.Proofs.Ast.Extract
import DeclGraph.Proofs.Table

namespace DeclGraph

/-! ## Symbols and members -/

/-- A symbol of a bucket of a unit. -/
structure Symbol.Declared (unit : String) (kind : SymbolKind) (s : Symbol) : Prop where
  kind_eq : s.kind = kind
  file_eq : s.file = .str unit
  name_spec : ∃ name, name ≠ "" ∧ s.name = .str name
  inherited_spec : ∃ names : List String, (∀ n ∈ names, n ≠ "") ∧ s.inheritedTypes = names.map .str
  rawKind_spec : ∃ raw, raw ≠ "" ∧ s.rawKind = .str raw
  typeName_spec : ∃ t?, s.typeName = .ofText? t?
  offset_spec : s.offset = .null ∨ s.offset.intOrBool?.isSome
  length_spec : s.length = .null ∨ ∃ n, s.length = .int n
  extended_eq : s.extendedType = if kind = .extension then s.name else .null

/-- A member of a type. -/
structure Member.Declared (m : Member) : Prop where
  name_spec : ∃ name, name ≠ "" ∧ m.name = .str name
  typeName_spec : ∃ t?, m.typeName = .ofText? t?

/-- The members of a type; initializers have no type. -/
structure MemberSet.Declared (m : MemberSet) : Prop where
  properties : ∀ x ∈ m.properties, x.Declared
  methods : ∀ x ∈ m.methods, x.Declared
  initializers : ∀ x ∈ m.initializers, x.Declared ∧ x.typeName = .null

/-- What a unit declares. -/
structure UnitData.Declared (unit : String) (data : UnitData) : Prop where
  symbols : ∀ kind, ∀ s ∈ data.symbols.bucket kind, s.Declared unit kind
  members : ∀ name set, (name, set) ∈ data.members.entries → set.Declared

namespace Ast

variable {v : Vocabulary} {unit : String}

theorem declared_symbolOf (hv : v.Lawful) {node : Node} {name : String} {kind : SymbolKind}
    {s : Symbol} (hd : DeclaresKind v node name kind)
    (h : symbolOf v unit node name kind = .ok s) : s.Declared unit kind := by
  obtain ⟨hn, hname, tag, ht, hne, -⟩ := hd
  obtain ⟨place, supertypes, hplace, hsupertypes, rfl⟩ := symbolOf_eq_ok.1 h
  obtain ⟨raw, hraw, hrawne⟩ := hv.rawKind ht hne
  exact {
    kind_eq := rfl
    file_eq := rfl
    name_spec := ⟨name, hname, rfl⟩
    inherited_spec := ⟨supertypes, hv.supertypes_ne hsupertypes, rfl⟩
    rawKind_spec := ⟨raw, hrawne, by rw [hraw]; rfl⟩
    typeName_spec := ⟨_, rfl⟩
    offset_spec := hv.offset hplace
    length_spec := hv.length hplace
    extended_eq := rfl }

/-! ## Members -/

theorem roleOf_eq_some {child : Node} {role : SymbolKind} {name : String} {m : Member}
    (h : roleOf v child = .ok (some (role, name, m))) :
    v.name child = some name ∧ m = {
      name := .str name, typeName := .ofText? (v.typeName child)
      access := Access.ofWord? (v.accessWord child) none } := by
  unfold roleOf at h
  split at h
  · cases h
  · rename_i name' hname
    obtain ⟨tag, -, h⟩ := bind_eq_ok.1 h
    obtain ⟨role', -, heq⟩ := Option.map_eq_some_iff.1 (Except.ok.inj h)
    cases heq
    exact ⟨hname, rfl⟩

theorem declared_of_roleOf (hv : v.Lawful) {child : Node} {role : SymbolKind} {name : String}
    {m : Member} (h : roleOf v child = .ok (some (role, name, m))) : m.Declared := by
  obtain ⟨hname, rfl⟩ := roleOf_eq_some h
  exact ⟨⟨name, hv.name_ne hname, rfl⟩, _, rfl⟩

theorem declared_membersOf (hv : v.Lawful) {node : Node} {set : MemberSet}
    (h : membersOf v node = .ok set) : set.Declared := by
  obtain ⟨nodes, -, h⟩ := bind_eq_ok.1 h
  obtain ⟨roles, hroles, h⟩ := bind_eq_ok.1 h
  have hrole {role : SymbolKind} {name : String} {m : Member}
      (hm : (role, name, m) ∈ roles.filterMap id) : m.Declared := by
    obtain ⟨o, ho, rfl⟩ := List.mem_filterMap.1 hm
    obtain ⟨child, -, hchild⟩ := exists_of_mem_mapM hroles ho
    exact declared_of_roleOf hv hchild
  obtain rfl := Except.ok.inj h
  refine ⟨fun x hx => ?_, fun x hx => ?_, fun x hx => ?_⟩
  · obtain ⟨⟨role, name, m⟩, hm, hx⟩ := List.mem_filterMap.1 hx
    dsimp only at hx
    split at hx
    · cases hx
      exact hrole hm
    · cases hx
  · obtain ⟨⟨role, name, m⟩, hm, hx⟩ := List.mem_filterMap.1 hx
    dsimp only at hx
    split at hx
    · cases hx
      exact hrole hm
    · cases hx
  · obtain ⟨y, hy, rfl⟩ := List.mem_map.1 hx
    obtain ⟨⟨role, name, m⟩, hm, hy⟩ := List.mem_filterMap.1 hy
    dsimp only at hy
    split at hy
    · cases hy
      exact ⟨⟨(hrole hm).name_spec, none, rfl⟩, rfl⟩
    · cases hy

/-! ## Units -/

/-- **Everything that extraction makes is well formed.** -/
theorem declared_extract {d : Dialect} {dump : Json} {data : UnitData}
    (h : extract d unit dump = .ok data) : data.Declared unit := by
  constructor
  · intro kind s hs
    rw [bucket_extract h, List.mem_filterMap] at hs
    obtain ⟨node, -, hs⟩ := hs
    obtain ⟨name, hd, hs⟩ := (symbolAt?_eq_some d.lawful).1 hs
    exact declared_symbolOf d.lawful hd hs
  · intro name set hset
    obtain ⟨declared, sets, -, hsets, rfl⟩ := exists_of_extract h
    obtain ⟨owner, -, -, hset⟩ := exists_left_of_mem hsets (Table.mem_of_mem_ofList hset)
    exact declared_membersOf d.lawful hset

end Ast

end DeclGraph
