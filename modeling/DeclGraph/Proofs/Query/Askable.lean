/-
  Which graphs answer every question.

  A document may hold any value where a text is expected, and reading it keeps the value.
  Questions then put names into lower case and look up units, and both need values of the
  right types.

  * `Graph.Askable` lists the values of a graph that have to be of such types;
  * `Graph.answers_iff`: a graph answers every proper question exactly if it is askable;
  * `Graph.wrongType_of_answer`: where it does not answer, a value is of the wrong type;
  * `Built.askable`: the graphs of raw units are askable.
-/
import DeclGraph.Proofs.Query.Resolve
import DeclGraph.Query.Basic

namespace DeclGraph

/-! ## Questions -/

/-- A question is proper unless it searches for a kind that cannot be searched for. -/
def Query.Proper : Query → Prop
  | .search _ kind _ => kind ∈ [.null, .str "all", .str "class", .str "struct", .str "protocol",
      .str "enum", .str "extension", .str "function"]
  | _ => True

/-- Whether a graph answers every proper question. -/
def Graph.Answers (g : Graph) : Prop := ∀ q : Query, q.Proper → ∃ a, q.answer g = .ok a

/-- The values that questions look at are texts or, where they are looked up only, no
    collections. -/
structure Graph.Askable (g : Graph) : Prop where
  /-- the names of symbols that can be searched for -/
  names : ∀ unit data, (unit, data) ∈ g.files.entries → ∀ kind ≠ .variable_,
    ∀ s ∈ data.symbols.bucket kind, ∃ name, s.name = .str name
  /-- the first place of a name in the index -/
  first : ∀ name, ∀ l ∈ ((g.indexes.byName.get? name).getD []).head?,
    l.file.isCollection = false
  /-- the unit that a name resolves to, -/
  home : ∀ name found, g.resolve name = .ok (some found) → found.file.isCollection = false
  /-- then all places of that name in the index, -/
  places : ∀ name found, g.resolve name = .ok (some found) →
    ∀ l ∈ (g.indexes.byName.get? name).getD [], l.file.isCollection = false
  /-- and the supertypes of what it resolves to -/
  supertypes : ∀ name found, g.resolve name = .ok (some found) →
    ∀ t ∈ found.symbol.inheritedTypes, t.isCollection = false

/-! ## Looking up -/

theorem Table.exists_at?_iff {α : Type} {t : Table α} {key : Json} :
    (∃ value, t.at? key = .ok value) ↔ key.isCollection = false := by
  unfold Table.at?
  cases key.isCollection with
  | true => exact ⟨nofun, nofun⟩
  | false => exact ⟨fun _ => rfl, fun _ => ⟨_, rfl⟩⟩

/-- A collection is not equal to a value of another type. -/
theorem Json.equiv_of_isCollection {place home : Json} (hplace : place.isCollection = true)
    (hhome : home.isCollection = false) : place.equiv home = false := by
  cases place <;> cases hplace <;> cases home <;> cases hhome <;> simp [equiv, intOrBool?]

/-! ## Searching -/

/-- A search goes through if all names are texts, … -/
theorem exists_collect (needle : String) (limit : Option Int) (found : Nat)
    {space : List (String × Symbol)} (h : ∀ p ∈ space, ∃ name, p.2.name = .str name) :
    ∃ hits, collect needle limit found space = .ok hits := by
  induction space generalizing found with
  | nil => exact ⟨[], rfl⟩
  | cons p rest ih =>
    obtain ⟨unit, s⟩ := p
    obtain ⟨name, hname⟩ := h (unit, s) List.mem_cons_self
    dsimp only at hname
    have ih := fun found => ih found fun p hp => h p (List.mem_cons_of_mem _ hp)
    rw [collect, hname]
    dsimp only
    split
    · split
      · exact ⟨_, rfl⟩
      · exact exists_map_eq_ok.2 (ih (found + 1))
    · exact ih found

/-- … and without a limit it looks at all of them. -/
theorem name_of_collect {needle : String} {found : Nat} {space : List (String × Symbol)}
    {hits : List SearchHit} (h : collect needle none found space = .ok hits) :
    ∀ p ∈ space, ∃ name, p.2.name = .str name := by
  induction space generalizing found hits with
  | nil => exact fun _ => nofun
  | cons p rest ih =>
    obtain ⟨unit, s⟩ := p
    rw [collect] at h
    split at h
    · rename_i name hname
      refine List.forall_mem_cons.2 ⟨⟨name, hname⟩, ?_⟩
      split at h
      · obtain ⟨later, hlater, -⟩ := map_eq_ok.1 h
        exact ih hlater
      · exact ih h
    · cases h

/-- A proper search is not for variables. -/
theorem searchKinds_of_proper {text : String} {kind : Json} {limit : Option Int}
    (h : (Query.search text kind limit).Proper) :
    ∃ kinds, searchKinds kind = .ok kinds ∧ .variable_ ∉ kinds := by
  simp only [Query.Proper, List.mem_cons, List.not_mem_nil, or_false] at h
  rcases h with rfl | rfl | rfl | rfl | rfl | rfl | rfl | rfl <;> exact ⟨_, rfl, by decide⟩

/-- Every kind but that of variables can be searched for on its own. -/
theorem exists_search_of_ne {kind : SymbolKind} (h : kind ≠ .variable_) (text : String)
    (limit : Option Int) : (Query.search text (.str kind.name) limit).Proper ∧
      searchKinds (.str kind.name) = .ok [kind] := by
  cases kind with
  | variable_ => exact absurd rfl h
  | _ => exact ⟨by simp [Query.Proper, SymbolKind.name], rfl⟩

namespace Graph

variable {g : Graph} {name : String}

theorem mem_searchSpace {kinds : List SymbolKind} {p : String × Symbol} :
    p ∈ g.searchSpace kinds ↔ ∃ data, (p.1, data) ∈ g.files.entries ∧
      ∃ kind ∈ kinds, p.2 ∈ data.symbols.bucket kind := by
  obtain ⟨unit, s⟩ := p
  simp only [searchSpace, List.mem_flatMap, List.mem_map, Prod.mk.injEq, mem_inKinds]
  constructor
  · rintro ⟨⟨_, data⟩, hdata, _, hs, rfl, rfl⟩
    exact ⟨data, hdata, hs⟩
  · rintro ⟨data, hdata, hs⟩
    exact ⟨(unit, data), hdata, s, hs, rfl, rfl⟩

theorem Askable.exists_search (hg : g.Askable) {text : String} {kind : Json} {limit : Option Int}
    (h : (Query.search text kind limit).Proper) : ∃ hits, g.search text kind limit = .ok hits := by
  obtain ⟨kinds, hkinds, hvariable⟩ := searchKinds_of_proper h
  rw [search, hkinds, ok_bind]
  refine exists_collect _ _ _ fun p hp => ?_
  obtain ⟨data, hdata, kind', hkind', hs⟩ := mem_searchSpace.1 hp
  have hne : kind' ≠ .variable_ := fun he => hvariable (he ▸ hkind')
  exact hg.names p.1 data hdata kind' hne p.2 hs

/-! ## Resolving -/

theorem exists_resolve_iff : (∃ found, g.resolve name = .ok found) ↔
    ∀ l ∈ ((g.indexes.byName.get? name).getD []).head?, l.file.isCollection = false := by
  have hindexed : (∃ found, g.resolve name = .ok found) ↔
      ∃ found, g.resolveIndexed name = .ok found := by
    rw [resolve, exists_bind_eq_ok]
    refine exists_congr fun found => and_iff_left ?_
    cases found with
    | none => exact ⟨_, rfl⟩
    | some r => exact ⟨_, rfl⟩
  rw [hindexed, resolveIndexed]
  cases (g.indexes.byName.get? name).getD [] with
  | nil =>
    refine ⟨fun _ l hl => ?_, fun _ => ⟨none, rfl⟩⟩
    cases hl
  | cons location rest =>
    dsimp only
    rw [exists_bind_eq_ok]
    simp only [List.head?_cons, Option.mem_def, Option.some.injEq, forall_eq',
      ← Table.exists_at?_iff (t := g.files)]
    exact exists_congr fun unit => and_iff_left ⟨_, rfl⟩

variable {found : Resolved}

theorem exists_members_iff (h : g.resolve name = .ok (some found)) :
    (∃ m, g.members name = .ok m) ↔ found.file.isCollection = false := by
  rw [members, h, ok_bind]
  dsimp only
  rw [exists_bind_eq_ok, ← Table.exists_at?_iff (t := g.files)]
  exact exists_congr fun unit => and_iff_left ⟨_, rfl⟩

/-! ## Usages -/

/-- The places outside of `home` cannot be collections, and a unit that is none itself is
    equal to none. -/
theorem exists_otherPlaces_iff {home : Json} (hhome : home.isCollection = false) :
    (∃ others, g.otherPlaces name home = .ok others) ↔
      ∀ l ∈ (g.indexes.byName.get? name).getD [], l.file.isCollection = false := by
  have hany : ((((g.indexes.byName.get? name).getD []).map IndexLocation.file).filter
      (fun place => !Json.equiv place home)).any Json.isCollection = false ↔
        ∀ l ∈ (g.indexes.byName.get? name).getD [], l.file.isCollection = false := by
    simp only [List.any_eq_false, List.mem_filter, List.mem_map, Bool.not_eq_true,
      Bool.not_eq_eq_eq_not, Bool.not_true]
    constructor
    · intro h l hl
      cases hplace : l.file.isCollection with
      | false => rfl
      | true =>
        have hother := Json.equiv_of_isCollection hplace hhome
        exact absurd (h l.file ⟨⟨l, hl, rfl⟩, hother⟩) (by rw [hplace]; exact Bool.noConfusion)
    · rintro h place ⟨⟨l, hl, rfl⟩, -⟩
      exact h l hl
  rw [← hany, otherPlaces]
  split
  · rename_i hbad
    rw [hbad]
    exact ⟨nofun, nofun⟩
  · rename_i hgood
    exact ⟨fun _ => eq_false_of_ne_true hgood, fun _ => ⟨_, rfl⟩⟩

theorem exists_usagesOutside_iff {home : Json} (hhome : home.isCollection = false) :
    (∃ u, g.usagesOutside name home = .ok u) ↔
      ∀ l ∈ (g.indexes.byName.get? name).getD [], l.file.isCollection = false := by
  rw [← exists_otherPlaces_iff hhome, usagesOutside, exists_bind_eq_ok]
  have hpure (units : List String) : ∃ u : Usages,
      (pure ⟨g.inheritors name, g.extensionSites name home, units⟩ : Except Fault Usages) = .ok u :=
    ⟨_, rfl⟩
  simp only [hpure, and_true, referencingUnits, exists_bind_eq_ok]
  exact exists_congr fun others => and_iff_left ⟨_, rfl⟩

theorem exists_usages_iff (h : g.resolve name = .ok (some found))
    (hhome : found.file.isCollection = false) : (∃ u, g.usages name = .ok u) ↔
      ∀ l ∈ (g.indexes.byName.get? name).getD [], l.file.isCollection = false := by
  rw [← exists_usagesOutside_iff hhome, usages, h, ok_bind]
  dsimp only
  rw [exists_bind_eq_ok]
  exact exists_congr fun u => and_iff_left ⟨_, rfl⟩

/-! ## Explaining -/

theorem exists_supertype_iff {t : Json} :
    (∃ s, g.supertype t = .ok s) ↔ t.isCollection = false := by
  rw [supertype, exists_bind_eq_ok, ← Table.exists_at?_iff (t := g.typeMap)]
  refine exists_congr fun entry => and_iff_left ?_
  cases entry with
  | none => exact ⟨_, rfl⟩
  | some e => exact ⟨_, rfl⟩

theorem exists_explain_iff (h : g.resolve name = .ok (some found)) :
    (∃ e, g.explain name = .ok e) ↔
      (∀ t ∈ found.symbol.inheritedTypes, t.isCollection = false) ∧
      (∃ m, g.members name = .ok m) ∧ ∃ u, g.usagesOutside name found.file = .ok u := by
  rw [explain, h, ok_bind]
  dsimp only
  simp only [exists_bind_eq_ok, ← exists_supertype_iff (g := g), ← exists_mapM_eq_ok]
  constructor
  · rintro ⟨ts, hts, m, hm, u, hu, -⟩
    exact ⟨⟨ts, hts⟩, ⟨m, hm⟩, u, hu⟩
  · rintro ⟨⟨ts, hts⟩, ⟨m, hm⟩, u, hu⟩
    exact ⟨ts, hts, m, hm, u, hu, _, rfl⟩

/-! ## All questions -/

theorem Answers.askable (h : g.Answers) : g.Askable := by
  have hresolve (name : String) : ∃ found, g.resolve name = .ok found :=
    exists_map_eq_ok.1 (h (.resolve name) trivial)
  have hhome (name : String) (found : Resolved) (hf : g.resolve name = .ok (some found)) :
      found.file.isCollection = false :=
    (exists_members_iff hf).1 (exists_map_eq_ok.1 (h (.members name) trivial))
  refine ⟨fun unit data hdata kind hkind s hs => ?_,
    fun name => exists_resolve_iff.1 (hresolve name), hhome, fun name found hf => ?_,
    fun name found hf => ?_⟩
  · obtain ⟨hproper, hkinds⟩ := exists_search_of_ne hkind "" none
    obtain ⟨hits, hhits⟩ := exists_map_eq_ok.1 (h _ hproper)
    rw [search, hkinds, ok_bind] at hhits
    exact name_of_collect hhits (unit, s)
      (mem_searchSpace.2 ⟨data, hdata, kind, List.mem_cons_self, hs⟩)
  · exact (exists_usages_iff hf (hhome name found hf)).1
      (exists_map_eq_ok.1 (h (.usages name) trivial))
  · exact ((exists_explain_iff hf).1 (exists_map_eq_ok.1 (h (.explain name) trivial))).1

theorem Askable.answers (hg : g.Askable) : g.Answers := by
  have hresolve (name : String) : ∃ found, g.resolve name = .ok found :=
    exists_resolve_iff.2 (hg.first name)
  have hmembers (name : String) : ∃ m, g.members name = .ok m := by
    obtain ⟨found, hf⟩ := hresolve name
    cases found with
    | none => exact ⟨{}, by rw [members, hf]; rfl⟩
    | some found => exact (exists_members_iff hf).2 (hg.home name found hf)
  intro q hq
  cases q with
  | resolve name => exact exists_map_eq_ok.2 (hresolve name)
  | search text kind limit => exact exists_map_eq_ok.2 (hg.exists_search hq)
  | members name => exact exists_map_eq_ok.2 (hmembers name)
  | usages name =>
    refine exists_map_eq_ok.2 ?_
    obtain ⟨found, hf⟩ := hresolve name
    cases found with
    | none => exact ⟨none, by rw [usages, hf]; rfl⟩
    | some found => exact (exists_usages_iff hf (hg.home name found hf)).2 (hg.places name found hf)
  | explain name =>
    refine exists_map_eq_ok.2 ?_
    obtain ⟨found, hf⟩ := hresolve name
    cases found with
    | none => exact ⟨none, by rw [explain, hf]; rfl⟩
    | some found =>
      have hhome := hg.home name found hf
      exact (exists_explain_iff hf).2 ⟨hg.supertypes name found hf, hmembers name,
        (exists_usagesOutside_iff hhome).2 (hg.places name found hf)⟩
  | stats largest => exact ⟨_, rfl⟩
  | overview fragment => exact ⟨_, rfl⟩

/-- **A graph answers every proper question exactly if it is askable.** -/
theorem answers_iff : g.Answers ↔ g.Askable := ⟨Answers.askable, Askable.answers⟩

end Graph

/-! ## Faults -/

/-- Whether a computation can only fail at a value of a wrong type. -/
def OnlyWrongType {α : Type} (x : Except Fault α) : Prop :=
  ∀ fault, x = .error fault → fault = .wrongType

namespace OnlyWrongType

variable {α β : Type}

theorem ok (a : α) : OnlyWrongType (.ok a) := nofun

theorem bind {x : Except Fault α} {f : α → Except Fault β} (hx : OnlyWrongType x)
    (hf : ∀ a, OnlyWrongType (f a)) : OnlyWrongType (x >>= f) := by
  intro fault h
  rcases bind_eq_error.1 h with h | ⟨a, -, h⟩
  · exact hx fault h
  · exact hf a fault h

theorem map {x : Except Fault α} (hx : OnlyWrongType x) (f : α → β) : OnlyWrongType (x.map f) :=
  fun fault h => hx fault (map_eq_error.1 h)

theorem mapM {f : α → Except Fault β} (hf : ∀ a, OnlyWrongType (f a)) (xs : List α) :
    OnlyWrongType (xs.mapM f) := by
  intro fault h
  obtain ⟨x, -, h⟩ := exists_of_mapM_eq_error h
  exact hf x fault h

end OnlyWrongType

theorem Table.onlyWrongType_at? {α : Type} (t : Table α) (key : Json) :
    OnlyWrongType (t.at? key) := by
  unfold Table.at?
  split
  · exact fun fault h => (Except.error.inj h).symm
  · exact .ok _

theorem onlyWrongType_collect (needle : String) (limit : Option Int) (found : Nat)
    (space : List (String × Symbol)) : OnlyWrongType (collect needle limit found space) := by
  induction space generalizing found with
  | nil => exact .ok _
  | cons p rest ih =>
    rw [collect]
    split
    · split
      · dsimp only
        split
        · exact .ok _
        · exact (ih _).map _
      · exact ih _
    · exact fun fault h => (Except.error.inj h).symm

namespace Graph

variable (g : Graph) (name : String) (home : Json)

theorem onlyWrongType_resolve : OnlyWrongType (g.resolve name) := by
  have hindexed : OnlyWrongType (g.resolveIndexed name) := by
    unfold resolveIndexed
    split
    · exact .ok _
    · exact (Table.onlyWrongType_at? _ _).bind fun _ => .ok _
  refine hindexed.bind fun found => ?_
  cases found <;> exact .ok _

theorem onlyWrongType_members : OnlyWrongType (g.members name) := by
  refine (g.onlyWrongType_resolve name).bind fun found => ?_
  cases found with
  | none => exact .ok _
  | some found => exact (Table.onlyWrongType_at? _ _).bind fun _ => .ok _

theorem onlyWrongType_usagesOutside : OnlyWrongType (g.usagesOutside name home) := by
  have hplaces : OnlyWrongType (g.otherPlaces name home) := by
    rw [otherPlaces]
    split
    · exact fun fault h => (Except.error.inj h).symm
    · exact .ok _
  exact (hplaces.bind fun _ => .ok _).bind fun _ => .ok _

theorem onlyWrongType_usages : OnlyWrongType (g.usages name) := by
  refine (g.onlyWrongType_resolve name).bind fun found => ?_
  cases found with
  | none => exact .ok _
  | some found => exact (g.onlyWrongType_usagesOutside name found.file).bind fun _ => .ok _

theorem onlyWrongType_supertype (t : Json) : OnlyWrongType (g.supertype t) := by
  refine (Table.onlyWrongType_at? _ _).bind fun entry => ?_
  cases entry <;> exact .ok _

theorem onlyWrongType_explain : OnlyWrongType (g.explain name) := by
  refine (g.onlyWrongType_resolve name).bind fun found => ?_
  cases found with
  | none => exact .ok _
  | some found =>
    refine (OnlyWrongType.mapM g.onlyWrongType_supertype _).bind fun _ => ?_
    refine (g.onlyWrongType_members name).bind fun _ => ?_
    exact (g.onlyWrongType_usagesOutside name found.file).bind fun _ => .ok _

/-- **A proper question that is not answered met a value of a wrong type.** -/
theorem wrongType_of_answer {g : Graph} {q : Query} (hq : q.Proper) :
    OnlyWrongType (q.answer g) := by
  cases q with
  | resolve name => exact (g.onlyWrongType_resolve name).map _
  | search text kind limit =>
    obtain ⟨kinds, hkinds, -⟩ := searchKinds_of_proper hq
    refine OnlyWrongType.map ?_ _
    rw [search, hkinds, ok_bind]
    exact onlyWrongType_collect _ _ _ _
  | usages name => exact (g.onlyWrongType_usages name).map _
  | members name => exact (g.onlyWrongType_members name).map _
  | explain name => exact (g.onlyWrongType_explain name).map _
  | stats largest => exact .ok _
  | overview fragment => exact .ok _

/-! ## Built graphs -/

/-- **A built graph is askable:** all its names and places are texts. -/
theorem Built.askable {g : Graph} (hg : g.Built) : g.Askable := by
  have hplaces (name : String) : ∀ l ∈ (g.indexes.byName.get? name).getD [],
      l.file.isCollection = false := by
    intro l hl
    obtain ⟨unit, -, -, -, hfile, -⟩ := hg.mem_byName.1 hl
    rw [hfile]
    rfl
  refine ⟨fun unit data hdata kind _ s hs => ?_, fun name l hl => ?_, fun name found hf => ?_,
    fun name _ _ => hplaces name, fun name found hf t ht => ?_⟩
  · obtain ⟨name, -, hname⟩ := ((hg.declared unit data hdata).symbols kind s hs).name_spec
    exact ⟨name, hname⟩
  · exact hplaces name l (List.mem_of_head? hl)
  · obtain ⟨unit, -, -, hfile, -, -⟩ := hg.resolve_eq_some hf
    rw [hfile]
    rfl
  · obtain ⟨unit, data, hdata, -, hs, -⟩ := hg.resolve_eq_some hf
    obtain ⟨names, -, hnames⟩ := ((hg.declared unit data hdata).symbols _ _ hs).inherited_spec
    rw [hnames] at ht
    obtain ⟨n, -, rfl⟩ := List.mem_map.1 ht
    rfl

end Graph

end DeclGraph
