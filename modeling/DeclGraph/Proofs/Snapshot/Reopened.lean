/-
  Asking a built graph that was written and read again.

  * `Graph.Textual`: names, supertypes and places are texts;
  * `Textual.askable`: such a graph answers every question;
  * `Built.textual` and `Textual.resaved`: a built graph is of this kind, and stays so when it is
    written and read.
-/
import DeclGraph.Proofs.Query.Askable
import DeclGraph.Proofs.Snapshot.Resave

namespace DeclGraph

namespace Graph

/-- The names, supertypes and places of a graph are texts. -/
structure Textual (g : Graph) : Prop where
  names : ∀ s ∈ g.symbols, ∃ name, s.name = .str name
  supertypes : ∀ s ∈ g.symbols, ∃ names : List String, s.inheritedTypes = names.map .str
  places : ∀ name, ∀ l ∈ (g.indexes.byName.get? name).getD [], ∃ unit, l.file = .str unit
  types : ∀ name e, (name, e) ∈ g.typeMap.entries → ∃ unit, e.file = .str unit

variable {g : Graph}

/-! ## Asking -/

/-- What a name resolves to is a symbol of the graph at one of its places. -/
theorem Textual.resolve_spec (hg : g.Textual) {name : String} {found : Resolved}
    (h : g.resolve name = .ok (some found)) :
    found.symbol ∈ g.symbols ∧ ∃ unit, found.file = .str unit := by
  obtain ⟨indexed, hindexed, h⟩ := bind_eq_ok.1 h
  cases indexed with
  | some r =>
    obtain rfl := Option.some.inj (Except.ok.inj h)
    rw [resolveIndexed] at hindexed
    cases hplaces : (g.indexes.byName.get? name).getD [] with
    | nil =>
      rw [hplaces] at hindexed
      cases hindexed
    | cons location rest =>
      obtain ⟨unit, hunit⟩ := hg.places name location (hplaces ▸ List.mem_cons_self)
      simp only [hplaces, hunit, Table.at?_str, ok_bind] at hindexed
      obtain ⟨symbol, hsymbol, rfl⟩ := Option.map_eq_some_iff.1 (Except.ok.inj hindexed)
      obtain ⟨data, hdata, hfind⟩ := Option.bind_eq_some_iff.1 hsymbol
      have hentry := (Table.lookup_eq_some_iff_mem g.files.nodup).1 hdata
      exact ⟨mem_symbols_of_unit hentry (List.mem_of_find?_eq_some hfind), unit, rfl⟩
  | none =>
    obtain ⟨e, he, rfl⟩ := Option.map_eq_some_iff.1 (Except.ok.inj h)
    have hentry := (Table.lookup_eq_some_iff_mem g.typeMap.nodup).1 he
    exact ⟨mem_symbols_of_type hentry, hg.types name e hentry⟩

/-- **A graph of texts answers every question.** -/
theorem Textual.askable (hg : g.Textual) : g.Askable := by
  have hplaces (name : String) : ∀ l ∈ (g.indexes.byName.get? name).getD [],
      l.file.isCollection = false := by
    intro l hl
    obtain ⟨unit, hunit⟩ := hg.places name l hl
    rw [hunit]
    rfl
  refine ⟨fun unit data hdata kind _ s hs => hg.names s (mem_symbols_of_unit hdata hs),
    fun name l hl => hplaces name l (List.mem_of_head? hl), fun name found hf => ?_,
    fun name _ _ => hplaces name, fun name found hf t ht => ?_⟩
  · obtain ⟨-, unit, hunit⟩ := hg.resolve_spec hf
    rw [hunit]
    rfl
  · obtain ⟨names, hnames⟩ := hg.supertypes found.symbol (hg.resolve_spec hf).1
    rw [hnames] at ht
    obtain ⟨n, -, rfl⟩ := List.mem_map.1 ht
    rfl

theorem Textual.exists_explain (hg : g.Textual) (name : String) :
    ∃ e?, g.explain name = .ok e? :=
  exists_map_eq_ok.1 (hg.askable.answers (.explain name) trivial)

/-! ## Writing and reading -/

theorem exists_of_mem_resaved {s : Symbol} (hs : s ∈ g.resaved.symbols) :
    ∃ s₀ ∈ g.symbols, s = s₀.resaved (rootHead g.repoPath) := by
  suffices h : ∃ s₁ ∈ g.retagged.symbols, s = s₁.relocated (rootHead g.repoPath) by
    obtain ⟨s₁, hs₁, rfl⟩ := h
    obtain ⟨s₀, hs₀, rfl⟩ := exists_of_mem_retagged hs₁
    exact ⟨s₀, hs₀, rfl⟩
  rcases exists_of_mem_symbols hs with ⟨unit, data, k, he, hs⟩ | ⟨name, entry, he, rfl⟩
  · obtain ⟨e, hentry, heq⟩ := List.mem_map.1 he
    cases heq
    obtain ⟨s₁, hs₁, rfl⟩ := List.mem_map.1 hs
    exact ⟨s₁, mem_symbols_of_unit hentry hs₁, rfl⟩
  · obtain ⟨e, hentry, heq⟩ := List.mem_map.1 he
    cases heq
    exact ⟨e.2.symbol, mem_symbols_of_type hentry, rfl⟩

/-- Names, supertypes and places stay what they are. -/
theorem Textual.resaved (hg : g.Textual) : g.resaved.Textual where
  names s hs := by
    obtain ⟨s₀, hs₀, rfl⟩ := exists_of_mem_resaved hs
    exact hg.names s₀ hs₀
  supertypes s hs := by
    obtain ⟨s₀, hs₀, rfl⟩ := exists_of_mem_resaved hs
    exact hg.supertypes s₀ hs₀
  places := hg.places
  types name e he := by
    rw [entries_typeMap_resaved] at he
    obtain ⟨⟨n, e₀⟩, he₀, heq⟩ := List.mem_map.1 he
    cases heq
    exact hg.types n e₀ he₀

/-- **All that a built graph holds in these places are texts.** -/
theorem Built.textual (hg : g.Built) : g.Textual where
  names s hs := by
    obtain ⟨unit, data, kind, hdata, hs⟩ := hg.mem_symbols hs
    obtain ⟨name, -, hname⟩ := ((hg.declared unit data hdata).symbols kind s hs).name_spec
    exact ⟨name, hname⟩
  supertypes s hs := by
    obtain ⟨unit, data, kind, hdata, hs⟩ := hg.mem_symbols hs
    obtain ⟨names, -, hnames⟩ := ((hg.declared unit data hdata).symbols kind s hs).inherited_spec
    exact ⟨names, hnames⟩
  places name l hl := by
    obtain ⟨unit, -, -, -, hfile, -⟩ := hg.mem_byName.1 hl
    exact ⟨unit, hfile⟩
  types name e he := by
    obtain ⟨unit, -, -, -, -, -, rfl⟩ := hg.mem_typeMap he
    exact ⟨unit, rfl⟩

end Graph

end DeclGraph
