/-
  The members of types beside the symbols of the unit.

  Members are read in a pass of their own, with other words than kinds are: a class method is a
  method of its owner and a class among the symbols.

  * `ReadOff`: the members that children are, one after the other;
  * `readOff_of_membersOf`: what extraction reads off the children of an owner;
  * `ReadOff.recordedIn`: every member has a symbol of its own;
  * `extract_members`: whose members the table holds, in which order, and their symbols.
-/
import DeclGraph.Proofs.Ast.Declared
import DeclGraph.Proofs.Ast.Owners
import Mathlib.Data.List.Perm.Subperm

namespace DeclGraph.Ast

variable {v : Vocabulary} {unit : String}

/-! ## Members of a list of children -/

/-- Whether a tag is that of a method or an initializer. -/
def Callable (tag : String) : Prop := Text.contains tag "function" ∨ Text.contains tag "method"

instance (tag : String) : Decidable (Callable tag) :=
  inferInstanceAs (Decidable (Text.contains tag "function" ∨ Text.contains tag "method"))

/-- A child of a name as a member. -/
def memberAt (v : Vocabulary) (name : String) (child : Node) : Member where
  name := .str name
  typeName := .ofText? (v.typeName child)
  access := Access.ofWord? (v.accessWord child) none

/-- The members that children are.  A callable child is a method or an initializer, whatever
    else its tag says, and initializers have no type. -/
inductive ReadOff (v : Vocabulary) : List Node → MemberSet → Prop
  | nil : ReadOff v [] {}
  | property {child : Node} {name tag : String} {children : List Node} {set : MemberSet} :
      v.name child = some name → v.tag child = .ok (some tag) → ¬ Callable tag →
      Text.contains tag "var" → ReadOff v children set → ReadOff v (child :: children)
        { set with properties := memberAt v name child :: set.properties }
  | method {child : Node} {name tag : String} {children : List Node} {set : MemberSet} :
      v.name child = some name → v.tag child = .ok (some tag) → Callable tag →
      ¬ Text.startsWith name "init" → ReadOff v children set → ReadOff v (child :: children)
        { set with methods := memberAt v name child :: set.methods }
  | initializer {child : Node} {name tag : String} {children : List Node} {set : MemberSet} :
      v.name child = some name → v.tag child = .ok (some tag) → Callable tag →
      Text.startsWith name "init" → ReadOff v children set → ReadOff v (child :: children)
        { set with
          initializers := { memberAt v name child with typeName := .null } :: set.initializers }
  | other {child : Node} {children : List Node} {set : MemberSet} :
      (v.name child = none ∨ ∀ tag, v.tag child = .ok (some tag) →
        ¬ Callable tag ∧ ¬ Text.contains tag "var") →
      ReadOff v children set → ReadOff v (child :: children) set

/-- Callables come first among the roles. -/
theorem memberRole?_eq (tag : String) : SymbolKind.memberRole? tag =
    if Callable tag then some .function
    else if Text.contains tag "var" then some .variable_ else none := by
  have hany : ["function", "method"].any (Text.contains tag) = decide (Callable tag) := by
    rw [Bool.eq_iff_iff, decide_eq_true_iff]
    simp [Callable]
  simp only [SymbolKind.memberRole?, SymbolKind.firstMatch, SymbolKind.memberWords,
    List.find?_cons, hany]
  by_cases hcall : Callable tag
  · simp [hcall]
  · cases hvar : Text.contains tag "var" <;> simp [hcall, hvar]

/-- The members that roles with names stand for. -/
def membersIn (roles : List (SymbolKind × String × Member)) : MemberSet where
  properties := roles.filterMap fun (role, _, member) =>
    if role = .variable_ then some member else none
  methods := roles.filterMap fun (role, name, member) =>
    if role = .function && isInitializer name == false then some member else none
  initializers := (roles.filterMap fun (role, name, member) =>
    if role = .function && isInitializer name == true then some member else none).map
      fun member => { member with typeName := .null }

theorem membersOf_eq_ok {node : Node} {set : MemberSet} : membersOf v node = .ok set ↔
    ∃ nodes roles, children v node = .ok nodes ∧
      List.Forall₂ (fun child role => roleOf v child = .ok role) nodes roles ∧
      set = membersIn (roles.filterMap id) := by
  rw [membersOf, bind_eq_ok]
  simp only [bind_eq_ok, mapM_eq_ok]
  constructor
  · rintro ⟨nodes, hnodes, roles, hroles, h⟩
    exact ⟨nodes, roles, hnodes, hroles, (Except.ok.inj h).symm⟩
  · rintro ⟨nodes, roles, hnodes, hroles, rfl⟩
    exact ⟨nodes, hnodes, roles, hroles, rfl⟩

theorem roleOf_eq_ok {child : Node} {o : Option (SymbolKind × String × Member)}
    (h : roleOf v child = .ok o) : (v.name child = none ∧ o = none) ∨ ∃ name tag?,
      v.name child = some name ∧ v.tag child = .ok tag? ∧
        o = (tag?.bind SymbolKind.memberRole?).map (·, name, memberAt v name child) := by
  unfold roleOf at h
  split at h
  · rename_i hname
    exact Or.inl ⟨hname, (Except.ok.inj h).symm⟩
  · rename_i name hname
    obtain ⟨tag?, htag, h⟩ := bind_eq_ok.1 h
    exact Or.inr ⟨name, tag?, hname, htag, (Except.ok.inj h).symm⟩

theorem readOff_membersIn {nodes : List Node} {roles : List (Option (SymbolKind × String × Member))}
    (h : List.Forall₂ (fun child role => roleOf v child = .ok role) nodes roles) :
    ReadOff v nodes (membersIn (roles.filterMap id)) := by
  induction h with
  | nil => exact .nil
  | cons hrole _ ih =>
    rcases roleOf_eq_ok hrole with ⟨hname, rfl⟩ | ⟨name, tag?, hname, htag, rfl⟩
    · exact .other (Or.inl hname) ih
    · cases tag? with
      | none => exact .other (Or.inr fun tag h => by rw [htag] at h; cases h) ih
      | some tag =>
        rw [Option.bind_some, memberRole?_eq]
        by_cases hcall : Callable tag
        · rw [if_pos hcall]
          cases hinit : Text.startsWith name "init" with
          | true =>
            simpa [membersIn, isInitializer, initializerHead, hinit] using
              ReadOff.initializer hname htag hcall hinit ih
          | false =>
            simpa [membersIn, isInitializer, initializerHead, hinit] using
              ReadOff.method hname htag hcall (Bool.eq_false_iff.1 hinit) ih
        · rw [if_neg hcall]
          by_cases hvar : Text.contains tag "var"
          · rw [if_pos hvar]
            exact .property hname htag hcall hvar ih
          · rw [if_neg hvar]
            refine .other (Or.inr fun tag' h => ?_) ih
            rw [htag] at h
            cases h
            exact ⟨hcall, hvar⟩

/-- The members of a node are read off its children. -/
theorem readOff_of_membersOf {node : Node} {set : MemberSet} (h : membersOf v node = .ok set) :
    ReadOff v (included v (childValues v node)) set := by
  obtain ⟨nodes, roles, hnodes, hroles, rfl⟩ := membersOf_eq_ok.1 h
  obtain ⟨items, hitems, rfl⟩ := map_eq_ok.1 hnodes
  rw [← included_of_listedOrNone hitems]
  exact readOff_membersIn hroles

/-! ## Symbols of members -/

/-- Whether a symbol records a member of a type of a unit. -/
structure RecordedAs (unit : String) (m : Member) (s : Symbol) : Prop where
  name : s.name = m.name
  file : s.file = .str unit
  access : ∀ a, m.access = some a → s.access = a

/-- Whether every member of a set has a symbol of its own among symbols. -/
def RecordedIn (unit : String) (symbols : List Symbol) (set : MemberSet) : Prop :=
  ∃ properties methods initializers : List Symbol,
    List.Forall₂ (fun m s => RecordedAs unit m s ∧ s.typeName = m.typeName)
      set.properties properties ∧
    List.Forall₂ (fun m s => RecordedAs unit m s ∧ s.typeName = m.typeName)
      set.methods methods ∧
    List.Forall₂ (RecordedAs unit) set.initializers initializers ∧
    (properties ++ methods ++ initializers).Subperm symbols

theorem RecordedIn.mono {symbols symbols' : List Symbol} {set : MemberSet}
    (h : RecordedIn unit symbols set) (hsub : symbols.Subperm symbols') :
    RecordedIn unit symbols' set := by
  obtain ⟨properties, methods, initializers, hproperties, hmethods, hinitializers, hwithin⟩ := h
  exact ⟨properties, methods, initializers, hproperties, hmethods, hinitializers,
    hwithin.trans hsub⟩

/-- The symbol that a node makes, if it makes one. -/
def symbolMade? (v : Vocabulary) (unit : String) (node : Node) : Option Symbol :=
  (declarationAt? v unit node).bind Declaration.symbol

/-- A tag with a role has a kind too. -/
theorem exists_classify? {tag : String} (h : Callable tag ∨ Text.contains tag "var") :
    ∃ kind, SymbolKind.classify? tag = some kind := by
  rw [SymbolKind.classify?, SymbolKind.firstMatch, ← Option.isSome_iff_exists, Option.isSome_map,
    List.find?_isSome]
  rcases h with (h | h) | h
  · exact ⟨(["function", "method"], .function), by decide, by simp [h]⟩
  · exact ⟨(["function", "method"], .function), by decide, by simp [h]⟩
  · exact ⟨(["var"], .variable_), by decide, by simp [h]⟩

/-- An access word says the same of a member and of its symbol. -/
theorem ofWord?_of_none {word : Option String} {a default : Access}
    (h : Access.ofWord? word none = some a) :
    (Access.ofWord? word (some default)).getD default = a := by
  unfold Access.ofWord? at h ⊢
  split at h
  · cases h
  · cases h
  · cases h
    rfl

/-- A child that is a member makes a symbol that records it. -/
theorem exists_symbolMade? {child : Node} {name tag : String} (hname : v.name child = some name)
    (htag : v.tag child = .ok (some tag)) (hrole : Callable tag ∨ Text.contains tag "var")
    (hread : ∃ o, declaration v unit child = .ok o) :
    ∃ s, symbolMade? v unit child = some s ∧ RecordedAs unit (memberAt v name child) s ∧
      s.typeName = (memberAt v name child).typeName := by
  obtain ⟨kind, hkind⟩ := exists_classify? hrole
  have hne : tag ≠ "" := by
    rintro rfl
    rw [show SymbolKind.classify? "" = none by decide] at hkind
    cases hkind
  obtain ⟨o, ho⟩ := hread
  have hdec := ho
  rw [declaration_of_tag htag hname hne, hkind] at hdec
  obtain ⟨s, hs, rfl⟩ := map_eq_ok.1 hdec
  refine ⟨s, by rw [symbolMade?, declarationAt?_of_ok ho]; rfl, ?_⟩
  obtain ⟨_, _, -, -, rfl⟩ := symbolOf_eq_ok.1 hs
  exact ⟨⟨rfl, rfl, fun a => ofWord?_of_none⟩, rfl⟩

/-- **Every member has a symbol of its own** among those that the children make. -/
theorem ReadOff.recordedIn {children : List Node} {set : MemberSet} (h : ReadOff v children set)
    (hread : ∀ child ∈ children, ∃ o, declaration v unit child = .ok o) :
    RecordedIn unit (children.filterMap (symbolMade? v unit)) set := by
  induction h with
  | nil => exact ⟨[], [], [], .nil, .nil, .nil, List.Subperm.refl _⟩
  | @property child name tag children set hname htag hcall hvar _ ih =>
    obtain ⟨hchild, hread⟩ := List.forall_mem_cons.1 hread
    obtain ⟨s, hs, hrecorded⟩ := exists_symbolMade? hname htag (Or.inr hvar) hchild
    obtain ⟨properties, methods, initializers, hp, hm, hi, hwithin⟩ := ih hread
    refine ⟨s :: properties, methods, initializers, .cons hrecorded hp, hm, hi, ?_⟩
    rw [List.filterMap_cons, hs]
    exact (List.subperm_cons s).2 hwithin
  | @method child name tag children set hname htag hcall hinit _ ih =>
    obtain ⟨hchild, hread⟩ := List.forall_mem_cons.1 hread
    obtain ⟨s, hs, hrecorded⟩ := exists_symbolMade? hname htag (Or.inl hcall) hchild
    obtain ⟨properties, methods, initializers, hp, hm, hi, hwithin⟩ := ih hread
    refine ⟨properties, s :: methods, initializers, hp, .cons hrecorded hm, hi, ?_⟩
    rw [List.filterMap_cons, hs, List.append_assoc, List.cons_append]
    rw [List.append_assoc] at hwithin
    exact List.perm_middle.subperm.trans ((List.subperm_cons s).2 hwithin)
  | @initializer child name tag children set hname htag hcall hinit _ ih =>
    obtain ⟨hchild, hread⟩ := List.forall_mem_cons.1 hread
    obtain ⟨s, hs, hrecorded, -⟩ := exists_symbolMade? hname htag (Or.inl hcall) hchild
    obtain ⟨properties, methods, initializers, hp, hm, hi, hwithin⟩ := ih hread
    have hrecorded' : RecordedAs unit { memberAt v name child with typeName := .null } s :=
      ⟨hrecorded.name, hrecorded.file, hrecorded.access⟩
    refine ⟨properties, methods, s :: initializers, hp, hm, .cons hrecorded' hi, ?_⟩
    rw [List.filterMap_cons, hs]
    exact List.perm_middle.subperm.trans ((List.subperm_cons s).2 hwithin)
  | @other child children set _ _ ih =>
    refine (ih (List.forall_mem_cons.1 hread).2).mono (List.Sublist.subperm ?_)
    exact (List.sublist_cons_self child children).filterMap _

/-! ## Children among the nodes of a dump -/

theorem included_sublist (items : List Json) :
    (included v items).Sublist (items.flatMap (visited v)) := by
  induction items with
  | nil => exact List.Sublist.refl _
  | cons item items ih =>
    rw [List.flatMap_cons]
    cases item with
    | obj node =>
      cases hex : v.excluded node with
      | true => simpa [included, node?, hex, visited_excluded v hex] using ih
      | false =>
        have hcons : included v (.obj node :: items) = node :: included v items := by
          simp [included, node?, hex]
        rw [hcons, visited_included v hex, List.cons_append]
        exact (ih.trans (List.sublist_append_right _ _)).cons_cons node
    | _ => exact ih.trans (List.sublist_append_right _ _)

/-- The children of a node of a dump are nodes of the dump, in their order. -/
theorem children_sublist {dump : Json} {node : Node} (h : node ∈ visited v dump) :
    (included v (childValues v node)).Sublist (visited v dump) := by
  induction dump using dump_induction v with
  | node root ih =>
    cases hex : v.excluded root with
    | true =>
      rw [visited_excluded v hex] at h
      cases h
    | false =>
      rw [visited_included v hex] at h ⊢
      rcases List.mem_cons.1 h with rfl | h
      · exact (included_sublist _).cons node
      · obtain ⟨item, hitem, hnode⟩ := List.mem_flatMap.1 h
        have hbelow := List.sublist_flatten_of_mem (List.mem_map_of_mem (f := visited v) hitem)
        rw [← List.flatMap_def] at hbelow
        exact ((ih item hitem hnode).trans hbelow).cons root
  | other item hitem =>
    rw [visited_of_not_node v hitem] at h
    cases h

/-! ## Symbols of a unit -/

theorem symbols_ofSymbols_perm (symbols : List Symbol) :
    (SymbolTable.ofSymbols symbols).symbols.Perm symbols := by
  refine perm_of_filter_perm (f := Symbol.kind) fun kind => List.Perm.of_eq ?_
  have hbucket (k : SymbolKind) : (symbols.filter (·.kind = k)).filter (·.kind = kind) =
      if k = kind then symbols.filter (·.kind = kind) else [] := by
    rw [List.filter_filter]
    split
    · rename_i h
      simp only [h, Bool.and_self]
    · rename_i h
      refine List.filter_eq_nil_iff.2 fun s _ hs => h ?_
      simp only [Bool.and_eq_true, decide_eq_true_eq] at hs
      exact hs.2.symm.trans hs.1
  simp only [SymbolTable.symbols, SymbolTable.inKinds, List.filter_flatMap,
    SymbolTable.bucket_ofSymbols, hbucket]
  cases kind <;> simp [SymbolKind.all]

/-- The symbols of a unit are those that the nodes of its dump make. -/
theorem symbols_extract_perm {d : Dialect} {dump : Json} {data : UnitData}
    (h : extract d unit dump = .ok data) :
    data.symbols.symbols.Perm
      ((visited d.vocabulary dump).filterMap (symbolMade? d.vocabulary unit)) := by
  obtain ⟨declared, sets, hdeclared, -, rfl⟩ := exists_of_extract h
  obtain ⟨os, hos, rfl⟩ := exists_of_declarations hdeclared
  refine (symbols_ofSymbols_perm _).trans (List.Perm.of_eq ?_)
  rw [declared_eq hos, List.filterMap_filterMap]
  rfl

/-! ## Names of types -/

theorem eraseDups_map {α β : Type*} [BEq α] [LawfulBEq α] [BEq β] [LawfulBEq β] {f : α → β}
    (hf : Function.Injective f) (xs : List α) : (xs.map f).eraseDups = xs.eraseDups.map f := by
  induction xs using List.reverseRecOn with
  | nil => rfl
  | append_singleton xs x ih =>
    rw [List.map_append, List.eraseDups_append, List.eraseDups_append, List.map_append, ih]
    by_cases h : x ∈ xs
    · simp [List.removeAll, h, List.mem_map_of_mem]
    · simp [List.removeAll, List.eraseDups_cons, h, hf.eq_iff]

theorem name_of_declaration {node : Node} {dec : Declaration} {s : Symbol}
    (h : declaration v unit node = .ok (some dec)) (hs : dec.symbol = some s) :
    s.name = .str dec.name := by
  obtain ⟨-, -, tag, -, -, ⟨-, hnone⟩ | ⟨kind, s', -, hs', hsome⟩⟩ := declaration_eq_some h
  · rw [hs] at hnone
    cases hnone
  · obtain rfl := Option.some.inj (hs.symm.trans hsome)
    obtain ⟨_, _, -, -, rfl⟩ := symbolOf_eq_ok.1 hs'
    rfl

/-- Every type has an owner: the node that declares it has its name. -/
theorem map_fst_memberOwners {declared : List Declaration}
    (h : ∀ dec ∈ declared, ∀ s, dec.symbol = some s → s.name = .str dec.name) :
    (memberOwners declared (.ofSymbols (declared.filterMap Declaration.symbol))).map
        (fun owner => Json.str owner.1) =
      ((SymbolTable.ofSymbols (declared.filterMap Declaration.symbol)).inKinds
        SymbolKind.types).map Symbol.name := by
  rw [memberOwners, List.map_filterMap, ← List.filterMap_eq_map]
  refine List.filterMap_congr fun s hs => ?_
  obtain ⟨kind, -, hs⟩ := List.mem_flatMap.1 hs
  obtain ⟨dec, hdec, hsymbol⟩ := List.mem_filterMap.1 (List.mem_of_mem_filter hs)
  have hname := h dec hdec s hsymbol
  have hfind : (declared.find? (·.name = dec.name)).isSome :=
    List.find?_isSome.2 ⟨dec, hdec, decide_eq_true rfl⟩
  obtain ⟨owner, howner⟩ := Option.isSome_iff_exists.1 hfind
  rw [hname]
  simp only [Json.text?, Option.bind_eq_bind, Option.bind_some, howner]
  rw [Function.comp_apply, hname]
  rfl

/-- **The table of members agrees with the table of symbols.**  Its keys are the names of the
    types, each at its first place.  A type has the members that the children of the first node
    of its name are, and every one of them has a symbol of its own in the unit. -/
theorem extract_members {d : Dialect} {dump : Json} {data : UnitData}
    (h : extract d unit dump = .ok data) :
    data.members.keys.map Json.str = ((data.symbols.inKinds
        [.class_, .struct, .protocol, .enum]).map Symbol.name).eraseDups ∧
      ∀ name set, (name, set) ∈ data.members.entries →
        (∃ place node, OwnsMembers d dump place node name ∧
          ReadOff d.vocabulary (included d.vocabulary (childValues d.vocabulary node)) set) ∧
        RecordedIn unit data.symbols.symbols set := by
  have hsymbols := symbols_extract_perm h
  have hread : ∀ node ∈ visited d.vocabulary dump,
      ∃ o, declaration d.vocabulary unit node = .ok o :=
    fun _ => exists_declaration_of_extract h
  obtain ⟨declared, sets, hdeclared, hsets, rfl⟩ := exists_of_extract h
  constructor
  · obtain ⟨os, hos, rfl⟩ := exists_of_declarations hdeclared
    have hnames : ∀ dec ∈ os.filterMap id, ∀ s, dec.symbol = some s → s.name = .str dec.name := by
      intro dec hdec s hs
      obtain ⟨o, ho, rfl⟩ := List.mem_filterMap.1 hdec
      obtain ⟨node, -, hnode⟩ := exists_left_of_mem hos ho
      exact name_of_declaration hnode hs
    have hkeys := map_eq_map_of_forall₂ (hsets.imp fun _ _ hset => hset.1.symm)
    rw [Table.keys_ofList, ← eraseDups_map fun _ _ => Json.str.inj, ← hkeys, List.map_map]
    exact congrArg List.eraseDups (map_fst_memberOwners hnames)
  · intro name set hset
    obtain ⟨⟨_, node⟩, howner, rfl, hmembers⟩ :=
      exists_left_of_mem hsets (Table.mem_of_mem_ofList hset)
    obtain ⟨place, howns⟩ := (mem_memberOwners_iff hdeclared).1 howner
    have hreadOff := readOff_of_membersOf hmembers
    have hchildren := children_sublist howns.stands.mem_visited
    refine ⟨⟨place, node, howns, hreadOff⟩, ?_⟩
    refine (hreadOff.recordedIn fun child hchild => hread child (hchildren.subset hchild)).mono ?_
    exact (hchildren.filterMap _).subperm.trans hsymbols.symm.subperm

/-- An alias with a variable below it before a class of the same name with a method. -/
def aliasBeforeClass : Json :=
  let named (kind name : String) (more : Node) : Json :=
    .obj (("key.kind", .str kind) :: ("key.name", .str name) :: more)
  .obj [("key.substructure", .arr [
    named "source.lang.swift.decl.typealias" "A" [("key.substructure", .arr [
      named "source.lang.swift.decl.var.instance" "x" [("key.typename", .str "Int"),
        ("key.accessibility", .str "source.lang.swift.accessibility.private")]])],
    named "source.lang.swift.decl.class" "A" [("key.substructure", .arr [
      named "source.lang.swift.decl.function.method.instance" "f()" []])]])]

/-- The class has the variable that stands below the alias as its member. -/
theorem extract_aliasBeforeClass_members : ∃ data,
    extract .swift "A.swift" aliasBeforeClass = .ok data ∧
    data.members.entries = [("A", { properties := [
      { name := .str "x", typeName := .str "Int", access := some .private_ }] })] ∧
    data.members.keys.map Json.str = ((data.symbols.inKinds
      [.class_, .struct, .protocol, .enum]).map Symbol.name).eraseDups ∧
    ∀ name set, (name, set) ∈ data.members.entries →
      (∃ place node, OwnsMembers .swift aliasBeforeClass place node name ∧
        ReadOff Dialect.swift.vocabulary (included Dialect.swift.vocabulary
          (childValues Dialect.swift.vocabulary node)) set) ∧
      RecordedIn "A.swift" data.symbols.symbols set := by
  have hentries : (extract .swift "A.swift" aliasBeforeClass).toOption.map
      (fun data => data.members.entries) = some [("A", { properties := [
        { name := .str "x", typeName := .str "Int", access := some .private_ }] })] := by
    decide +kernel
  cases h : extract .swift "A.swift" aliasBeforeClass with
  | error f => rw [h] at hentries; cases hentries
  | ok data =>
    rw [h] at hentries
    exact ⟨data, rfl, Option.some.inj hentries, extract_members h⟩

end DeclGraph.Ast
