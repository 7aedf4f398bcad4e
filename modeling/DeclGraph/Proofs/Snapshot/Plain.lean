/-
  The documents of built graphs hold only what a text can write, but for long integers.

  * `Graph.Built.plain`: such a document is plain and not high;
  * `Graph.Built.exists_write_iff`: it can be written if the numbers in it are short.
-/
import DeclGraph.Proofs.Graph.Build
import DeclGraph.Proofs.Graph.Indexes
import DeclGraph.Proofs.Json.RoundTrip

namespace DeclGraph

variable {p : Int → Prop} {d e : Nat}

/-! ## Values -/

namespace Json

theorem plain_obj_iff {ms : List (String × Json)} :
    Plain p (d + 1) (obj ms) ↔ (ms.map Prod.fst).Nodup ∧ ∀ m ∈ ms, Plain p d m.2 :=
  ⟨fun h => by cases h with | obj hk h => exact ⟨hk, h⟩, fun h => .obj h.1 h.2⟩

theorem Plain.exists_member {ms : List (String × Json)} (h : Plain p d (.obj ms)) {key : String}
    {j : Json} (hm : (key, j) ∈ ms) : ∃ e, Plain p e j := by
  cases h with
  | obj _ h => exact ⟨_, h _ hm⟩

theorem Plain.exists_item {items : List Json} (h : Plain p d (.arr items)) {j : Json}
    (hj : j ∈ items) : ∃ e, Plain p e j := by
  cases h with
  | arr h => exact ⟨_, h j hj⟩

theorem plain_ofText? (t? : Option String) : Plain p d (ofText? t?) := by
  cases t? with
  | none => exact .null
  | some t => exact .str t

theorem plain_arr_map {α : Type _} {f : α → Json} {xs : List α} (h : ∀ x ∈ xs, Plain p d (f x)) :
    Plain p (d + 1) (arr (xs.map f)) := by
  refine .arr fun j hj => ?_
  obtain ⟨x, hx, rfl⟩ := List.mem_map.1 hj
  exact h x hx

theorem plain_ofTable {α : Type _} {f : α → Json} {t : Table α}
    (h : ∀ key value, (key, value) ∈ t.entries → Plain p d (f value)) :
    Plain p (d + 1) (ofTable f t) := by
  refine .obj ?_ fun m hm => ?_
  · rw [List.map_map]
    exact t.nodup
  · obtain ⟨e, he, rfl⟩ := List.mem_map.1 hm
    exact h e.1 e.2 he

/-- Leaving out members leaves an object plain. -/
theorem plain_of_sublist {ms ns : List (String × Json)} (h : ms.Sublist ns)
    (hn : Plain p (d + 1) (obj ns)) : Plain p (d + 1) (obj ms) := by
  rw [plain_obj_iff] at hn ⊢
  exact ⟨hn.1.sublist (h.map _), fun m hm => hn.2 m (h.subset hm)⟩

theorem plain_of_intOrBool? {j : Json} (h : j.intOrBool?.isSome)
    (hp : ∀ n, j = int n → p n) : j.Plain p d := by
  cases j with
  | int n => exact .int (hp n rfl)
  | bool b => exact .bool b
  | _ => cases h

end Json

open Json (Plain)

/-! ## Symbols and members -/

/-- The numbers that say where a symbol stands in its unit satisfy `p`. -/
def Symbol.Extent (p : Int → Prop) (s : Symbol) : Prop :=
  ∀ n, s.offset = .int n ∨ s.length = .int n → p n

/-- All symbols of a graph stand where `p` says. -/
def Graph.Extents (p : Int → Prop) (g : Graph) : Prop :=
  ∀ unit data, (unit, data) ∈ g.files.entries → ∀ kind, ∀ s ∈ data.symbols.bucket kind, s.Extent p

theorem Graph.extents_of_placeless {g : Graph} (h : ∀ e ∈ g.files.entries, ∀ kind ∈ SymbolKind.all,
    ∀ s ∈ e.2.symbols.bucket kind, s.offset = .null ∧ s.length = .null) : g.Extents p := by
  intro unit data hdata kind s hs n hn
  obtain ⟨hoffset, hlength⟩ := h _ hdata kind kind.mem_all s hs
  rw [hoffset, hlength] at hn
  rcases hn with hn | hn <;> cases hn

theorem Symbol.Declared.plain_name {unit : String} {kind : SymbolKind} {s : Symbol}
    (h : s.Declared unit kind) : s.name.Plain p d := by
  obtain ⟨name, -, hname⟩ := h.name_spec
  rw [hname]
  exact .str name

theorem Symbol.Declared.plain_inherited {unit : String} {kind : SymbolKind} {s : Symbol}
    (h : s.Declared unit kind) : ∀ j ∈ s.inheritedTypes, j.Plain p d := by
  obtain ⟨names, -, hnames⟩ := h.inherited_spec
  rw [hnames]
  intro j hj
  obtain ⟨name, -, rfl⟩ := List.mem_map.1 hj
  exact .str name

theorem Symbol.Declared.plain {unit : String} {kind : SymbolKind} {s : Symbol}
    (h : s.Declared unit kind) (hs : s.Extent p) : s.toJson.Plain p (d + 2) := by
  have hraw : s.rawKind.Plain p (d + 1) := by
    obtain ⟨raw, -, hraw⟩ := h.rawKind_spec
    rw [hraw]
    exact .str raw
  have htype : s.typeName.Plain p (d + 1) := by
    obtain ⟨t?, ht⟩ := h.typeName_spec
    rw [ht]
    exact Json.plain_ofText? t?
  have hoffset : s.offset.Plain p (d + 1) := by
    rcases h.offset_spec with ho | ho
    · rw [ho]
      exact .null
    · exact Json.plain_of_intOrBool? ho fun n hn => hs n (Or.inl hn)
  have hlength : s.length.Plain p (d + 1) := by
    rcases h.length_spec with hl | ⟨n, hl⟩
    · rw [hl]
      exact .null
    · rw [hl]
      exact .int (hs n (Or.inr hl))
  have hextended : s.extendedType.Plain p (d + 1) := by
    rw [h.extended_eq]
    split
    · exact h.plain_name
    · exact .null
  have hinherited : Plain p (d + 1) (.arr s.inheritedTypes) := .arr h.plain_inherited
  have hall : Plain p (d + 2) (.obj ([("name", s.name), ("kind", .str s.kind.name),
      ("file", s.file), ("inheritedTypes", .arr s.inheritedTypes),
      ("accessibility", .str s.access.name)] ++ s.optionalMembers)) := by
    simp [Json.plain_obj_iff, optionalMembers, h.file_eq, h.plain_name, hraw, htype, hoffset,
      hlength, hextended, Plain.str, hinherited]
  exact Json.plain_of_sublist (List.Sublist.append_left List.filter_sublist _) hall

/-- A number in the object of a symbol satisfies what all numbers of a plain value do. -/
theorem Symbol.extent_of_plain {s : Symbol} (h : s.toJson.Plain p d) : s.Extent p := by
  have hnumber (key : String) (n : Int) (hmem : (key, Json.int n) ∈ s.toMembers) : p n := by
    obtain ⟨e, h⟩ := h.exists_member hmem
    cases h with
    | int hn => exact hn
  intro n hn
  rcases hn with hn | hn
  · exact hnumber "offset" n (by simp [toMembers, Json.present, hn])
  · exact hnumber "length" n (by simp [toMembers, Json.present, hn])

theorem Member.Declared.plain {m : Member} (h : m.Declared) {key : Option String}
    (hk : ∀ k, key = some k → k ≠ "name" ∧ k ≠ "access") : (m.toJson key).Plain p (d + 1) := by
  obtain ⟨name, typeName, access⟩ := m
  obtain ⟨n, -, rfl : name = .str n⟩ := h.name_spec
  obtain ⟨t?, rfl : typeName = .ofText? t?⟩ := h.typeName_spec
  cases key with
  | none => cases access <;> simp [toJson, Json.plain_obj_iff, Plain.str]
  | some k =>
    have hk := hk k rfl
    by_cases ht : (Json.ofText? t?).truthy <;> cases access <;>
      simp [toJson, Json.plain_obj_iff, Plain.str, Json.plain_ofText?, ht, hk, Ne.symm hk.1]

theorem MemberSet.Declared.plain {set : MemberSet} (h : set.Declared) :
    set.toJson.Plain p (d + 3) := by
  have hproperties : Plain p (d + 2) (.arr (set.properties.map (Member.toJson (some "type")))) :=
    Json.plain_arr_map fun m hm => (h.properties m hm).plain (by rintro k ⟨⟩; decide)
  have hmethods : Plain p (d + 2) (.arr (set.methods.map (Member.toJson (some "returnType")))) :=
    Json.plain_arr_map fun m hm => (h.methods m hm).plain (by rintro k ⟨⟩; decide)
  have hinitializers : Plain p (d + 2) (.arr (set.initializers.map (Member.toJson none))) :=
    Json.plain_arr_map fun m hm => (h.initializers m hm).1.plain nofun
  simp [toJson, roles, Json.plain_obj_iff, hproperties, hmethods, hinitializers]

/-! ## Units -/

theorem UnitData.Declared.plain {unit : String} {data : UnitData} (h : data.Declared unit)
    (hs : ∀ kind, ∀ s ∈ data.symbols.bucket kind, s.Extent p) : data.toJson.Plain p (d + 5) := by
  have hsymbols : data.symbols.toJson.Plain p (d + 4) := by
    refine .obj (by simp [SymbolKind.all, SymbolKind.bucket]) fun m hm => ?_
    obtain ⟨kind, -, rfl⟩ := List.mem_map.1 hm
    exact Json.plain_arr_map fun s hmem => (h.symbols kind s hmem).plain (hs kind s hmem)
  have hmembers : (Json.ofTable MemberSet.toJson data.members).Plain p (d + 4) :=
    Json.plain_ofTable fun name set hset => (h.members name set hset).plain
  simp [toJson, Json.plain_obj_iff, Plain.str, hsymbols, hmembers]

/-! ## Graphs -/

namespace Graph.Built

variable {g : Graph}

theorem declared_of_mem_inKinds (hg : g.Built) {unit : String} {data : UnitData}
    (hdata : (unit, data) ∈ g.files.entries) {kinds : List SymbolKind} {s : Symbol}
    (h : s ∈ data.symbols.inKinds kinds) : ∃ kind, s.Declared unit kind := by
  obtain ⟨kind, -, h⟩ := mem_inKinds.1 h
  exact ⟨kind, (hg.declared unit data hdata).symbols kind s h⟩

theorem plain_entry (hg : g.Built) (hp : g.Extents p) {name : String} {e : TypeMapEntry}
    (h : (name, e) ∈ g.typeMap.entries) : e.toJson.Plain p (d + 3) := by
  obtain ⟨unit, data, hdata, s, hs, -, rfl⟩ := hg.mem_typeMap h
  obtain ⟨kind, -, hmem⟩ := mem_inKinds.1 hs
  have hsymbol := ((hg.declared unit data hdata).symbols kind s hmem).plain
    (hp unit data hdata kind s hmem) (d := d)
  simp [TypeMapEntry.toJson, Json.plain_obj_iff, Plain.str, hsymbol]

theorem plain_edge (hg : g.Built) {e : Edge} (h : e ∈ g.edges) : e.toJson.Plain p (d + 1) := by
  rw [hg.edges_eq, mem_edges] at h
  obtain ⟨unit, data, hdata, s, hs, h⟩ := h
  obtain ⟨name, -, entry, hentry, rfl⟩ := mem_edgesOf.1 h
  obtain ⟨kind, hs⟩ := hg.declared_of_mem_inKinds hdata hs
  obtain ⟨home, _, _, _, _, -, rfl⟩ :=
    hg.mem_typeMap ((Table.lookup_eq_some_iff_mem g.typeMap.nodup).1 hentry)
  simp [Edge.toJson, Json.plain_obj_iff, Plain.str, hs.plain_name]

theorem plain_names (hg : g.Built) {chosen : String → SymbolKind → Prop}
    [∀ unit kind, Decidable (chosen unit kind)] :
    Plain p (d + 1) (.arr (Indexes.rows g.files fun unit kind s =>
      if chosen unit kind then [s.name] else [])) := by
  refine .arr fun name hname => ?_
  obtain ⟨unit, data, hdata, kind, -, s, hs, hname⟩ := Indexes.mem_rows.1 hname
  split at hname
  · obtain rfl := List.mem_singleton.1 hname
    exact ((hg.declared unit data hdata).symbols kind s hs).plain_name
  · cases hname

theorem plain_indexes (hg : g.Built) : g.indexes.toJson.Plain p (d + 4) := by
  rw [hg.indexes_eq]
  have hnames : (Json.ofTable (fun locs => .arr (locs.map IndexLocation.toJson))
      (DeclGraph.indexes g.files).byName).Plain p (d + 3) := by
    refine Json.plain_ofTable fun name locs hlocs => Json.plain_arr_map fun l hl => ?_
    rw [← Table.row_of_mem hlocs, Indexes.row_byName] at hl
    obtain ⟨unit, data, -, kind, -, s, -, hl⟩ := Indexes.mem_rows.1 hl
    split at hl
    · obtain rfl := List.mem_singleton.1 hl
      simp [IndexLocation.toJson, Json.plain_obj_iff, Plain.str]
    · cases hl
  have hkinds : (Json.ofTable .arr (DeclGraph.indexes g.files).byKind).Plain p (d + 3) := by
    refine Json.plain_ofTable fun key names hn => ?_
    rw [← Table.row_of_mem hn, Indexes.row_byKind]
    exact hg.plain_names
  have hfiles : (Json.ofTable .arr (DeclGraph.indexes g.files).byFile).Plain p (d + 3) := by
    refine Json.plain_ofTable fun key names hn => ?_
    rw [← Table.row_of_mem hn, Indexes.row_byFile]
    exact hg.plain_names
  simp [Indexes.toJson, Json.plain_obj_iff, hnames, hkinds, hfiles]

/-- **The document of a built graph is plain** if its root and its time are, and its symbols
    stand where `p` says. -/
theorem plain (hg : g.Built) (hroot : g.repoPath.Plain p (d + 6))
    (htime : g.generatedAt.Plain p (d + 6)) (hone : p formatVersion) (hp : g.Extents p) :
    g.toDocument.Plain p (d + 7) := by
  have hfiles : (Json.ofTable UnitData.toJson g.files).Plain p (d + 6) :=
    Json.plain_ofTable fun unit data hdata =>
      (hg.declared unit data hdata).plain (hp unit data hdata)
  have htypes : (Json.ofTable TypeMapEntry.toJson g.typeMap).Plain p (d + 5) :=
    Json.plain_ofTable fun _ _ he => hg.plain_entry hp he
  have hedges : Plain p (d + 5) (.arr (g.edges.map Edge.toJson)) :=
    Json.plain_arr_map fun _ he => hg.plain_edge he
  have hdependencies : Plain p (d + 6) (.obj [("typeMap", .ofTable TypeMapEntry.toJson g.typeMap),
      ("edges", .arr (g.edges.map Edge.toJson))]) := by
    simp [Json.plain_obj_iff, htypes, hedges]
  have hindexes : g.indexes.toJson.Plain p (d + 6) := hg.plain_indexes
  simp [toDocument, Json.plain_obj_iff, Plain.int hone, hroot, htime, hfiles, hdependencies,
    hindexes]

end Graph.Built

/-! ## Long integers -/

theorem Graph.extents_of_plain {g : Graph} (h : g.toDocument.Plain p d) : g.Extents p := by
  intro unit data hdata kind s hs
  have hunit : (unit, data.toJson) ∈ g.files.entries.map fun e => (e.1, UnitData.toJson e.2) :=
    List.mem_map.2 ⟨(unit, data), hdata, rfl⟩
  have hkind : (kind.bucket, Json.arr ((data.symbols.bucket kind).map Symbol.toJson)) ∈
      SymbolKind.all.map fun k => (k.bucket, .arr ((data.symbols.bucket k).map Symbol.toJson)) :=
    List.mem_map.2 ⟨kind, kind.mem_all, rfl⟩
  obtain ⟨_, hfiles⟩ :=
    h.exists_member (by simp : ("files", Json.ofTable UnitData.toJson g.files) ∈ _)
  obtain ⟨_, hunit⟩ := hfiles.exists_member hunit
  obtain ⟨_, hsymbols⟩ := hunit.exists_member (by simp : ("symbols", data.symbols.toJson) ∈ _)
  obtain ⟨_, hbucket⟩ := hsymbols.exists_member hkind
  obtain ⟨_, hsymbol⟩ := hbucket.exists_item (List.mem_map.2 ⟨s, hs, rfl⟩)
  exact Symbol.extent_of_plain hsymbol

variable {g : Graph} {lay : Json.Layout}

/-- **The document of a built graph can be written** if the numbers in it are short, … -/
theorem Graph.Built.exists_write_iff (hg : g.Built) (hroot : g.repoPath.Plain Json.Short 6)
    (htime : g.generatedAt.Plain Json.Short 6) (he : 7 ≤ e) :
    (∃ s, g.toDocument.write e lay = .ok s) ↔ g.Extents Json.Short := by
  constructor
  · rintro ⟨s, hs⟩
    have hplain : g.toDocument.Plain (fun _ => True) 7 :=
      hg.plain (hroot.mono (fun _ _ => trivial) le_rfl) (htime.mono (fun _ _ => trivial) le_rfl)
        trivial fun _ _ _ _ _ _ _ _ => trivial
    exact Graph.extents_of_plain (hplain.short_of_flaw? (Json.write_eq_ok_iff.1 hs).1)
  · intro hshort
    have hplain := hg.plain hroot htime (Json.short_of_lt (by decide)) hshort
    exact ⟨_, Json.write_eq_ok_iff.2 ⟨hplain.flaw?_eq_none he, rfl⟩⟩

/-- … and else because of a long integer it cannot. -/
theorem Graph.Built.write_eq_error (hg : g.Built) (hroot : g.repoPath.Plain Json.Short 6)
    (htime : g.generatedAt.Plain Json.Short 6) (he : 7 ≤ e) (hlong : ¬ g.Extents Json.Short) :
    g.toDocument.write e lay = .error .longInteger := by
  have hplain : g.toDocument.Plain (fun _ => True) 7 :=
    hg.plain (hroot.mono (fun _ _ => trivial) le_rfl) (htime.mono (fun _ _ => trivial) le_rfl)
      trivial fun _ _ _ _ _ _ _ _ => trivial
  have hwrites : ¬ ∃ s, g.toDocument.write e lay = .ok s := by
    rwa [hg.exists_write_iff hroot htime he]
  rw [Json.write] at hwrites ⊢
  cases hflaw : g.toDocument.flaw? e with
  | none => exact absurd ⟨_, by rw [hflaw]⟩ hwrites
  | some fault => rw [hplain.flaw?_eq_some he hflaw]

end DeclGraph
