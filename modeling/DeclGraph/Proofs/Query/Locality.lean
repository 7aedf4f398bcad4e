/-
  What is said about a name does not depend on units that leave the name out.

  * `Widens`: a graph has the units of another one and, among them, units that omit a name;
  * `UsedAt.unique`: there is one way to say where a name is used;
  * `Widens.resolve_eq`, `members_eq` and `usages_eq`: the wider graph answers the same;
  * `answers_build_insert`: one more raw unit that omits a name changes no answer about it.
-/
import DeclGraph.Proofs.Query.Askable
import DeclGraph.Proofs.Query.Usages

namespace DeclGraph

/-- No symbol of a unit has a name as its own, as its type or among its supertypes. -/
def UnitData.Omits (data : UnitData) (name : String) : Prop :=
  ∀ kind, ∀ s ∈ data.symbols.bucket kind,
    s.name ≠ .str name ∧ s.typeName ≠ .str name ∧ .str name ∉ s.inheritedTypes

/-- Nothing that is read off a raw unit mentions a name; a unit that cannot be read omits
    all names. -/
def RawUnit.Omits (u : RawUnit) (name : String) : Prop :=
  ∀ data, u.extract = .ok data → data.Omits name

instance (data : UnitData) (name : String) : Decidable (data.Omits name) :=
  decidable_of_iff (∀ kind ∈ SymbolKind.all, ∀ s ∈ data.symbols.bucket kind,
      s.name ≠ .str name ∧ s.typeName ≠ .str name ∧ .str name ∉ s.inheritedTypes)
    ⟨fun h kind => h kind (SymbolKind.mem_all kind), fun h kind _ => h kind⟩

instance (u : RawUnit) (name : String) : Decidable (u.Omits name) :=
  match hu : u.extract with
  | .ok data =>
    decidable_of_iff (data.Omits name)
      ⟨fun h _ hdata => Except.ok.inj (hu.symm.trans hdata) ▸ h, fun h => h data hu⟩
  | .error _ => isTrue fun _ hdata => nomatch hu.symm.trans hdata

namespace UnitData.Omits

variable {data : UnitData} {name : String}

theorem not_declares (h : data.Omits name) (kinds : List SymbolKind) :
    ¬ data.Declares kinds name := by
  rintro ⟨s, hs, hname⟩
  obtain ⟨kind, -, hs⟩ := mem_inKinds.1 hs
  exact (h kind s hs).1 hname

theorem not_mentions (h : data.Omits name) : ¬ data.Mentions name := by
  rintro ⟨kind, s, hs, htype | hsuper⟩
  · exact (h kind s hs).2.1 htype
  · exact (h kind s hs).2.2 hsuper

end UnitData.Omits

namespace Graph

variable {g g' : Graph} {name home : String}

/-! ## One list of usages -/

/-- There is only one way to say where a name is used. -/
theorem UsedAt.unique {u u' : Usages} (hu : g.UsedAt name home u) (hu' : g.UsedAt name home u') :
    u = u' := by
  have hinherited : u.inheritedBy = u'.inheritedBy := by
    by_cases htype : g.DeclaresType name
    · rw [hu.inheritedBy htype, hu'.inheritedBy htype]
    · rw [hu.inheritedBy_nil htype, hu'.inheritedBy_nil htype]
  have hextended : u.extendedIn = u'.extendedIn := by rw [hu.extendedIn, hu'.extendedIn]
  have hreferenced : u.referencedIn = u'.referencedIn := by
    refine sublist_ext hu.referencedIn hu'.referencedIn g.files.nodup fun unit => ?_
    rw [hu.mem_referencedIn, hu'.mem_referencedIn]
  cases u
  cases u'
  simp_all

/-! ## Wider graphs -/

/-- The units of `g'` are those of `g` and, somewhere among them, units that omit a name. -/
def Widens (g g' : Graph) (name : String) : Prop :=
  ∃ before new after, g.files.entries = before ++ after ∧
    g'.files.entries = before ++ new ++ after ∧ ∀ entry ∈ new, entry.2.Omits name

namespace Widens

theorem mem_of_mem (h : g.Widens g' name) {entry : String × UnitData}
    (hentry : entry ∈ g.files.entries) : entry ∈ g'.files.entries := by
  obtain ⟨before, new, after, hg, hg', -⟩ := h
  rw [hg] at hentry
  rw [hg']
  rcases List.mem_append.1 hentry with hmem | hmem
  · simp [hmem]
  · simp [hmem]

theorem mem_of_not_omits (h : g.Widens g' name) {entry : String × UnitData}
    (hentry : entry ∈ g'.files.entries) (homits : ¬ entry.2.Omits name) :
    entry ∈ g.files.entries := by
  obtain ⟨before, new, after, hg, hg', hnew⟩ := h
  rw [hg', List.append_assoc] at hentry
  rw [hg]
  rcases List.mem_append.1 hentry with hmem | hmem
  · simp [hmem]
  · rcases List.mem_append.1 hmem with hmem | hmem
    · exact absurd (hnew entry hmem) homits
    · simp [hmem]

/-- A list to which units that omit the name contribute nothing is the same for both graphs. -/
theorem flatMap_eq {β : Type} (h : g.Widens g' name) {f : String × UnitData → List β}
    (hf : ∀ entry, entry.2.Omits name → f entry = []) :
    g'.files.entries.flatMap f = g.files.entries.flatMap f := by
  obtain ⟨before, new, after, hg, hg', hnew⟩ := h
  have hnil : new.flatMap f = [] :=
    List.flatMap_eq_nil_iff.2 fun entry hentry => hf entry (hnew entry hentry)
  simp [hg, hg', hnil]

theorem declaresType_iff (h : g.Widens g' name) : g'.DeclaresType name ↔ g.DeclaresType name := by
  constructor
  · rintro ⟨unit, data, hdata, hdeclares⟩
    exact ⟨unit, data, h.mem_of_not_omits hdata fun homits => homits.not_declares _ hdeclares,
      hdeclares⟩
  · rintro ⟨unit, data, hdata, hdeclares⟩
    exact ⟨unit, data, h.mem_of_mem hdata, hdeclares⟩

theorem declarations_eq (h : g.Widens g' name) (kinds : List SymbolKind) :
    g'.declarations kinds name = g.declarations kinds name := by
  simp only [declarations, occurrences, List.filter_flatMap]
  refine h.flatMap_eq fun entry homits => ?_
  simp only [List.flatMap_eq_nil_iff, List.filter_eq_nil_iff, List.mem_map]
  rintro kind - _ ⟨s, hs, rfl⟩
  simpa using (homits kind s hs).1

/-! ## Usages in the wider graph -/

/-- The units of the wider graph that refer to the name are units of the other one. -/
theorem sublist_referencedIn (h : g.Widens g' name) {u : Usages} (hu : g'.UsedAt name home u) :
    u.referencedIn.Sublist g.files.keys := by
  have hsub := hu.referencedIn
  have hknown : ∀ unit ∈ u.referencedIn, unit ∈ g.files.keys := by
    intro unit hunit
    obtain ⟨data, hdata, -, hused⟩ := (hu.mem_referencedIn unit).1 hunit
    have homits : ¬ data.Omits name := by
      intro homits
      rcases hused with hdeclares | hmentions
      · exact homits.not_declares _ hdeclares
      · exact homits.not_mentions hmentions
    exact List.mem_map_of_mem (f := Prod.fst) (h.mem_of_not_omits hdata homits)
  -- the units of the smaller graph are those that stay of the wider one
  have hkeys : g'.files.keys.filter (· ∈ g.files.keys) = g.files.keys := by
    refine filter_mem_of_sublist ?_ g'.files.nodup
    obtain ⟨before, new, after, hg, hg', -⟩ := h
    rw [Table.keys, Table.keys, hg, hg']
    exact ((List.sublist_append_left before new).append_right after).map Prod.fst
  rw [← hkeys, ← List.filter_eq_self.2 fun unit hunit => decide_eq_true (hknown unit hunit)]
  exact hsub.filter _

/-- What is used in the wider graph is used in the other one, and in the same places. -/
theorem usedAt (h : g.Widens g' name) {u : Usages} (hu : g'.UsedAt name home u) :
    g.UsedAt name home u where
  inheritedBy htype := by
    rw [hu.inheritedBy (h.declaresType_iff.2 htype)]
    refine h.flatMap_eq fun entry homits => ?_
    refine List.flatMap_eq_nil_iff.2 fun s hs => ?_
    obtain ⟨kind, -, hs⟩ := mem_inKinds.1 hs
    rw [List.count_eq_zero_of_not_mem (homits kind s hs).2.2, List.replicate_zero]
  inheritedBy_nil htype := hu.inheritedBy_nil fun htype' => htype (h.declaresType_iff.1 htype')
  extendedIn := by
    rw [hu.extendedIn]
    refine h.flatMap_eq fun entry homits => ?_
    have hnone : (entry.2.symbols.bucket .extension).filter (·.name = .str name) = [] := by
      refine List.filter_eq_nil_iff.2 fun s hs => ?_
      simpa using (homits .extension s hs).1
    rw [hnone, List.map_nil, ite_self]
  referencedIn := h.sublist_referencedIn hu
  mem_referencedIn unit := by
    rw [hu.mem_referencedIn]
    constructor
    · rintro ⟨data, hdata, hunit, hused⟩
      refine ⟨data, h.mem_of_not_omits hdata fun homits => ?_, hunit, hused⟩
      exact hused.elim (homits.not_declares _) homits.not_mentions
    · rintro ⟨data, hdata, hunit, hused⟩
      exact ⟨data, h.mem_of_mem hdata, hunit, hused⟩

/-! ## Answers of the wider graph -/

theorem resolve_eq (h : g.Widens g' name) (hg : g.Built) (hg' : g'.Built) :
    g'.resolve name = g.resolve name := by
  rw [hg.resolve_eq, hg'.resolve_eq, h.declarations_eq]

theorem members_eq (h : g.Widens g' name) (hg : g.Built) (hg' : g'.Built) :
    g'.members name = g.members name := by
  rw [members, members, h.resolve_eq hg hg']
  cases hresolve : g.resolve name with
  | error fault => rfl
  | ok found =>
    cases found with
    | none => rfl
    | some found =>
      -- the unit that the name resolves to is in both graphs
      obtain ⟨unit, data, hdata, hfile, -, -⟩ := hg.resolve_eq_some hresolve
      simp only [ok_bind, hfile, Table.at?_str, get?_files hdata, get?_files (h.mem_of_mem hdata)]

theorem usages_eq (h : g.Widens g' name) (hg : g.Built) (hg' : g'.Built) :
    g'.usages name = g.usages name := by
  have hresolve := h.resolve_eq hg hg'
  cases hfound : g.resolve name with
  | error fault => rw [usages, usages, hresolve, hfound]; rfl
  | ok found =>
    cases found with
    | none => rw [usages, usages, hresolve, hfound]; rfl
    | some found =>
      obtain ⟨home, u, hfile, hu, hspec⟩ := hg.usages_spec hfound
      obtain ⟨home', u', hfile', hu', hspec'⟩ := hg'.usages_spec (hresolve.trans hfound)
      obtain rfl : home = home' := Json.str.inj (hfile.symm.trans hfile')
      rw [hu, hu', (h.usedAt hspec').unique hspec]

end Widens

end Graph

/-! ## One more raw unit -/

/-- One more raw unit with a new id gives at most one more unit, in one place. -/
theorem widens_build_insert {before after : List RawUnit} {u : RawUnit} {name : String}
    (hid : ∀ v ∈ before ++ after, v.id ≠ u.id) (homits : u.Omits name)
    (repoPath now repoPath' now' : Json) :
    (build (before ++ after) repoPath now).1.Widens
      (build (before ++ u :: after) repoPath' now').1 name := by
  have hnew : ∀ p ∈ (before.map fun v => (v.id, v)) ++ after.map fun v => (v.id, v),
      p.1 ≠ u.id := by
    intro p hp
    rw [← List.map_append] at hp
    obtain ⟨v, hv, rfl⟩ := List.mem_map.1 hp
    exact hid v hv
  obtain ⟨front, back, hwithout, hwith⟩ := Table.entries_ofList_insert (e := (u.id, u)) hnew
  rw [← List.map_append] at hwithout
  rw [← List.map_cons (f := fun v : RawUnit => (v.id, v)), ← List.map_append] at hwith
  let read : String × RawUnit → List (String × UnitData) :=
    fun p => (p.2.extract.toOption.map (p.1, ·)).toList
  refine ⟨front.flatMap read, read (u.id, u), back.flatMap read, ?_, ?_, ?_⟩
  · rw [entries_files_build, extracted, List.filterMap_eq_flatMap_toList, rawTable, hwithout,
      List.flatMap_append]
  · rw [entries_files_build, extracted, List.filterMap_eq_flatMap_toList, rawTable, hwith,
      List.flatMap_append, List.flatMap_cons, List.append_assoc]
  · intro entry hentry
    dsimp only [read] at hentry
    cases hu : u.extract with
    | error fault => simp [hu, Except.toOption] at hentry
    | ok data =>
      obtain rfl : entry = (u.id, data) := by simpa [hu, Except.toOption] using hentry
      exact homits data hu

/-- **A unit that does not mention a name changes no answer about it.**  Wherever the unit is
    put among the others, whether it can be read, and whatever else it declares, the name has
    the same declaration, the same members and the same usages in the same order. -/
theorem answers_build_insert {before after : List RawUnit} {u : RawUnit} {name : String}
    (hid : ∀ v ∈ before ++ after, v.id ≠ u.id) (homits : u.Omits name)
    (repoPath now repoPath' now' : Json) :
    let g := (build (before ++ after) repoPath now).1
    let g' := (build (before ++ u :: after) repoPath' now').1
    (∃ found, g.resolve name = .ok found ∧ g'.resolve name = .ok found) ∧
      (∃ members, g.members name = .ok members ∧ g'.members name = .ok members) ∧
      (∃ usages, g.usages name = .ok usages ∧ g'.usages name = .ok usages) := by
  intro g g'
  have h : g.Widens g' name := widens_build_insert hid homits repoPath now repoPath' now'
  have hg : g.Built := built_build
  have hg' : g'.Built := built_build
  have hanswers := hg.askable.answers
  obtain ⟨found, hfound⟩ := exists_map_eq_ok.1 (hanswers (.resolve name) trivial)
  obtain ⟨members, hmembers⟩ := exists_map_eq_ok.1 (hanswers (.members name) trivial)
  obtain ⟨usages, husages⟩ := exists_map_eq_ok.1 (hanswers (.usages name) trivial)
  exact ⟨⟨found, hfound, (h.resolve_eq hg hg').trans hfound⟩,
    ⟨members, hmembers, (h.members_eq hg hg').trans hmembers⟩,
    ⟨usages, husages, (h.usages_eq hg hg').trans husages⟩⟩

/-- Another class of the name "Derived", which is declared first and inherits from elsewhere. -/
def otherDerived : RawUnit where
  id := "Another.swift"
  dialect := .str "swift"
  dump := .obj [("key.kind", .str "source.lang.swift.decl.class"), ("key.name", .str "Derived"),
    ("key.inheritedtypes", .arr [.obj [("key.name", .str "Elsewhere")]])]

/-- It takes the place of the class that inherits from "Base", whose answers stay. -/
theorem answers_otherDerived :
    let g := (build baseAndDerived .null .null).1
    let g' := (build (otherDerived :: baseAndDerived) .null .null).1
    g'.resolve "Derived" ≠ g.resolve "Derived" ∧
      ∃ usages, g.usages "Base" = .ok usages ∧ g'.usages "Base" = .ok usages := by
  have hid : ∀ v ∈ [] ++ baseAndDerived, v.id ≠ otherDerived.id := by decide
  have homits : otherDerived.Omits "Base" := by decide +kernel
  exact ⟨by decide +kernel, (answers_build_insert hid homits .null .null .null .null).2.2⟩

end DeclGraph
