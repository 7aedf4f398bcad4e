/-
  Declarations that both dialects can write.

  An outline says what is declared, and inside of what, without the words of a dialect.  Each
  dialect writes it in its own way, as a dump, and what is read off that dump does not tell the
  dialects apart.

  * `Outline` and `Outline.toJson`: what is declared, and how a dialect writes it;
  * `reads_nodeOf`: a dialect reads back what it writes in one node;
  * `extract_dump`: what is read off the dump of outlines, said of the outlines themselves;
  * `extract_dialects`: the two dialects read the same, but for the words of the nodes.
-/
import DeclGraph.Proofs.Ast.Members

namespace DeclGraph.Ast

/-! ## Outlines -/

/-- What a declaration says of itself. -/
structure Heading where
  kind : SymbolKind
  name : String
  /-- The names of the types that it inherits from. -/
  supertypes : List String
  /-- The type of a variable or the result type of a function. -/
  type? : Option String
  name_ne : name ≠ ""
  /-- A dollar sign would say in Swift that the compiler made the declaration. -/
  name_written : Text.startsWith name "$" = false
  supertypes_ne : "" ∉ supertypes

/-- A declaration with the declarations that stand inside of it. -/
inductive Outline where
  | declare (heading : Heading) (children : List Outline)

namespace Outline

/-- What the outermost declaration says of itself. -/
def heading : Outline → Heading
  | declare heading _ => heading

/-- The declarations right inside of the outermost one. -/
def children : Outline → List Outline
  | declare _ children => children

/-- Induction from the declarations inside of a declaration to that declaration. -/
theorem induction {P : Outline → Prop}
    (declare : ∀ heading children, (∀ o ∈ children, P o) → P (.declare heading children))
    (o : Outline) : P o :=
  @Outline.rec P (fun os => ∀ o ∈ os, P o) declare (fun _ => nofun)
    (fun _ _ ho hos => List.forall_mem_cons.2 ⟨ho, hos⟩) o

mutual

/-- All declarations of an outline, each of them before those inside of it. -/
def preorder : Outline → List Outline
  | declare heading children => declare heading children :: preorderAll children

/-- All declarations of several outlines, outline after outline. -/
def preorderAll : List Outline → List Outline
  | [] => []
  | o :: os => preorder o ++ preorderAll os

end

theorem preorderAll_eq_flatMap (os : List Outline) : preorderAll os = os.flatMap preorder := by
  induction os with
  | nil => rfl
  | cons o os ih => rw [preorderAll, ih, List.flatMap_cons]

end Outline

/-! ## Writing outlines -/

/-- The word of a dialect for declarations of a kind. -/
def kindWord : Dialect → SymbolKind → String
  | .swift, .class_ => "source.lang.swift.decl.class"
  | .swift, .struct => "source.lang.swift.decl.struct"
  | .swift, .protocol => "source.lang.swift.decl.protocol"
  | .swift, .enum => "source.lang.swift.decl.enum"
  | .swift, .extension => "source.lang.swift.decl.extension"
  | .swift, .function => "source.lang.swift.decl.function.method.instance"
  | .swift, .variable_ => "source.lang.swift.decl.var.instance"
  | .objc, .class_ => "ObjCInterfaceDecl"
  | .objc, .struct => "RecordDecl"
  | .objc, .protocol => "ObjCProtocolDecl"
  | .objc, .enum => "EnumDecl"
  | .objc, .extension => "ObjCCategoryDecl"
  | .objc, .function => "ObjCMethodDecl"
  | .objc, .variable_ => "ObjCPropertyDecl"

/-- How Objective-C and C write what is declared: a record needs the word of its kind of record,
    and a category refers to its class instead of having a name. -/
def objcSubject (h : Heading) : Node :=
  match h.kind with
  | .struct => [("tagUsed", .str "struct"), ("name", .str h.name)]
  | .extension => [("interface", .obj [("name", .str h.name)])]
  | _ => [("name", .str h.name)]

/-- The node of a declaration in a dialect, with the values that it lists as its children. -/
def nodeOf : Dialect → Heading → List Json → Node
  | .swift, h, below =>
    [("key.kind", .str (kindWord .swift h.kind)), ("key.name", .str h.name),
      ("key.inheritedtypes", .arr (h.supertypes.map fun t => .obj [("key.name", .str t)])),
      ("key.substructure", .arr below)] ++
    (h.type?.map fun t => ("key.typename", .str t)).toList
  | .objc, h, below =>
    ("kind", .str (kindWord .objc h.kind)) :: objcSubject h ++
    [("protocols", .arr (h.supertypes.map fun t => .obj [("name", .str t)])),
      ("inner", .arr below)] ++
    (h.type?.map fun t =>
      (if h.kind = .function then "returnType" else "type", .obj [("qualType", .str t)])).toList

namespace Outline

mutual

/-- An outline as a dialect writes it. -/
def toJson (d : Dialect) : Outline → Json
  | declare heading children => .obj (nodeOf d heading (toJsons d children))

/-- Several outlines as a dialect writes them. -/
def toJsons (d : Dialect) : List Outline → List Json
  | [] => []
  | o :: os => toJson d o :: toJsons d os

end

theorem toJsons_eq_map (d : Dialect) (os : List Outline) : toJsons d os = os.map (toJson d) := by
  induction os with
  | nil => rfl
  | cons o os ih => rw [toJsons, ih, List.map_cons]

/-- The node that a dialect writes for the outermost declaration. -/
def node (d : Dialect) (o : Outline) : Node := nodeOf d o.heading (o.children.map (toJson d))

theorem toJson_eq (d : Dialect) (o : Outline) : o.toJson d = .obj (o.node d) := by
  cases o
  rw [toJson, toJsons_eq_map]
  rfl

/-- The root of a dump, which has no name. -/
def rootOf : Dialect → List Json → Node
  | .swift, below => [("key.diagnostic_stage", .str "source.diagnostic.stage.swift.parse"),
      ("key.substructure", .arr below)]
  | .objc, below => [("kind", .str "TranslationUnitDecl"), ("inner", .arr below)]

/-- The dump of a unit that declares some outlines. -/
def dump (d : Dialect) (os : List Outline) : Json := .obj (rootOf d (os.map (toJson d)))

end Outline

/-! ## What outlines stand for -/

namespace Heading

variable (h : Heading)

/-- The symbol of a declaration in a unit, with the word that a dialect has for it. -/
def symbol (d : Dialect) (unit : String) : Symbol where
  name := .str h.name
  kind := h.kind
  file := .str unit
  inheritedTypes := h.supertypes.map .str
  access := defaultAccess unit
  rawKind := .str (kindWord d h.kind)
  typeName := .ofText? h.type?
  extendedType := if h.kind = .extension then .str h.name else .null

/-- A declaration as a member of the one around it. -/
def member : Member where
  name := .str h.name
  typeName := .ofText? h.type?

/-- The role of a declaration in the one around it, with its name and as a member. -/
def role? : Option (SymbolKind × String × Member) :=
  if h.kind = .function ∨ h.kind = .variable_ then some (h.kind, h.name, h.member) else none

end Heading

namespace Outline

/-- The members of the outermost declaration; initializers have no type. -/
def members (o : Outline) : MemberSet where
  properties := ((o.children.map heading).filter (·.kind = .variable_)).map Heading.member
  methods := ((o.children.map heading).filter fun h =>
    h.kind = .function ∧ ¬ Text.startsWith h.name "init").map Heading.member
  initializers := ((o.children.map heading).filter fun h =>
    h.kind = .function ∧ Text.startsWith h.name "init").map fun h =>
      { h.member with typeName := .null }

/-- The types among declarations, each with the first declaration of its name, whatever that
    one is. -/
def owners (os : List Outline) : List (String × Outline) :=
  (SymbolKind.types.flatMap fun kind => os.filter (·.heading.kind = kind)).filterMap
    fun o => (os.find? (·.heading.name = o.heading.name)).map (o.heading.name, ·)

/-- The members of every type among declarations, which are those of its owner. -/
def memberTable (os : List Outline) : Table MemberSet :=
  Table.ofList ((owners os).map fun owner => (owner.1, owner.2.members))

end Outline

/-! ## Reading one node -/

/-- The tag of the nodes that a dialect writes for declarations of a kind. -/
def kindTag : Dialect → SymbolKind → String
  | .swift, kind => kindWord .swift kind
  | .objc, .class_ => "objc.decl.class"
  | .objc, .struct => "c.decl.struct"
  | .objc, .protocol => "objc.decl.protocol"
  | .objc, .enum => "c.decl.enum"
  | .objc, .extension => "objc.decl.extension"
  | .objc, .function => "objc.decl.method"
  | .objc, .variable_ => "objc.decl.var.property"

theorem kindTag_ne (d : Dialect) (kind : SymbolKind) : kindTag d kind ≠ "" := by
  cases d <;> cases kind <;> decide +kernel

/-- A tag stands for the kind for which it is written, … -/
theorem classify?_kindTag (d : Dialect) (kind : SymbolKind) :
    SymbolKind.classify? (kindTag d kind) = some kind := by
  cases d <;> cases kind <;> decide +kernel

/-- … and only functions and variables have a role in other declarations. -/
theorem memberRole?_kindTag (d : Dialect) (kind : SymbolKind) :
    SymbolKind.memberRole? (kindTag d kind) =
      if kind = .function ∨ kind = .variable_ then some kind else none := by
  cases d <;> cases kind <;> decide +kernel

/-- What a dialect reads off a node is what a declaration says of itself. -/
structure Reads (d : Dialect) (node : Node) (h : Heading) : Prop where
  included : d.vocabulary.excluded node = false
  tag : d.vocabulary.tag node = .ok (some (kindTag d h.kind))
  rawKind : d.vocabulary.rawKind node = some (kindWord d h.kind)
  name : d.vocabulary.name node = some h.name
  accessWord : d.vocabulary.accessWord node = none
  typeName : d.vocabulary.typeName node = h.type?
  range : d.vocabulary.range node = .ok (.null, .null)
  supertypes : d.vocabulary.supertypes node = .ok h.supertypes

/-- The keys that a dialect writes in the node of a declaration. -/
def nodeKeys : Dialect → List String
  | .swift => ["key.kind", "key.name", "key.inheritedtypes", "key.substructure", "key.typename"]
  | .objc => ["kind", "tagUsed", "name", "interface", "protocols", "inner", "returnType", "type"]

theorem mem_nodeKeys (d : Dialect) (h : Heading) (below : List Json) :
    ∀ key ∈ (nodeOf d h below).map Prod.fst, key ∈ nodeKeys d := by
  obtain ⟨kind, _, _, type?, _, _, _⟩ := h
  cases d <;> cases kind <;> cases type? <;> simp [nodeOf, objcSubject, nodeKeys]

/-- What is read at any other key is missing. -/
theorem memberOrNull_nodeOf {d : Dialect} {key : String} (hkey : key ∉ nodeKeys d) (h : Heading)
    (below : List Json) : Json.memberOrNull key (nodeOf d h below) = .null := by
  have hnone : (nodeOf d h below).lookup key = none := by
    rw [List.lookup_eq_none_iff]
    intro m hm
    rw [bne_iff_ne]
    rintro rfl
    exact hkey (mem_nodeKeys d h below m.1 (List.mem_map_of_mem hm))
  rw [Json.memberOrNull, Json.member?, hnone]
  rfl

/-- The names in a list of objects that hold a name each. -/
theorem filterMap_named {key : String} {names : List String} {read : Json → Option String}
    (hnames : "" ∉ names) (hread : ∀ name ≠ "", read (.obj [(key, .str name)]) = some name) :
    (names.map fun name => Json.obj [(key, .str name)]).filterMap read = names := by
  rw [List.filterMap_map]
  refine (List.filterMap_congr fun name hname => ?_).trans List.filterMap_some
  exact hread name fun h => hnames (h ▸ hname)

theorem reads_swift (h : Heading) (below : List Json) :
    Reads .swift (nodeOf .swift h below) h where
  included := by
    have hname : Json.memberOrNull "key.name" (nodeOf .swift h below) = .str h.name := rfl
    change Swift.isSynthesized _ = false
    rw [Swift.isSynthesized, memberOrNull_nodeOf (by decide), hname]
    exact h.name_written
  tag := rfl
  rawKind := rfl
  name := Json.nonEmptyText?_eq_some.2 ⟨rfl, h.name_ne⟩
  accessWord := congrArg Json.text? (memberOrNull_nodeOf (by decide) h below)
  typeName := by
    obtain ⟨_, _, _, type?, _, _, _⟩ := h
    cases type? <;> rfl
  range := by
    change Except.ok (Swift.intOrNull _ _, Swift.intOrNull _ _) = _
    rw [Swift.intOrNull, Swift.intOrNull, memberOrNull_nodeOf (by decide),
      memberOrNull_nodeOf (by decide)]
  supertypes := congrArg Except.ok (filterMap_named h.supertypes_ne fun _ ht =>
    Json.nonEmptyText?_eq_some.2 ⟨rfl, ht⟩)

theorem refName?_named {t : String} (h : t ≠ "") :
    ObjC.refName? (.obj [("name", .str t)]) = some t :=
  Json.nonEmptyText?_eq_some.2 ⟨rfl, h⟩

theorem objc_range_nodeOf (h : Heading) (below : List Json) :
    ObjC.rangeOf (nodeOf .objc h below) = .ok (.null, .null) := by
  have hbounds : ObjC.boundsOf? (nodeOf .objc h below) = none := by
    rw [ObjC.boundsOf?, memberOrNull_nodeOf (by decide)]
    rfl
  rw [ObjC.rangeOf, hbounds, ObjC.placeOf, memberOrNull_nodeOf (by decide)]
  rfl

/-- Supertypes are written as protocols, whatever the declaration is. -/
theorem objc_supertypes_nodeOf (h : Heading) (below : List Json) :
    ObjC.supertypes (nodeOf .objc h below) = .ok h.supertypes := by
  have hprotocols : Json.memberOrNull "protocols" (nodeOf .objc h below) =
      .arr (h.supertypes.map fun t => .obj [("name", .str t)]) := by
    obtain ⟨kind, _, _, _, _, _, _⟩ := h
    cases kind <;> rfl
  have hsuper : Json.memberOrNull "super" (nodeOf .objc h below) = .null :=
    memberOrNull_nodeOf (by decide) h below
  have hbases : Json.memberOrNull "bases" (nodeOf .objc h below) = .null :=
    memberOrNull_nodeOf (by decide) h below
  rw [ObjC.supertypes, hsuper, hprotocols, hbases, Json.listedOrNone_arr, ok_bind]
  refine congrArg Except.ok ?_
  rw [filterMap_named h.supertypes_ne fun _ ht => refName?_named ht]
  exact List.append_nil h.supertypes

theorem reads_objc (h : Heading) (below : List Json) : Reads .objc (nodeOf .objc h below) h where
  included := by
    change ObjC.isForeign _ = false
    rw [ObjC.isForeign, memberOrNull_nodeOf (by decide), memberOrNull_nodeOf (by decide)]
    rfl
  tag := by
    obtain ⟨kind, _, _, _, _, _, _⟩ := h
    cases kind <;> rfl
  rawKind := rfl
  name := by
    obtain ⟨kind, name, _, _, hname, _, _⟩ := h
    cases kind with
    | extension => exact refName?_named hname
    | _ => exact Json.nonEmptyText?_eq_some.2 ⟨rfl, hname⟩
  accessWord := congrArg Json.text? (memberOrNull_nodeOf (by decide) h below)
  typeName := by
    obtain ⟨kind, _, _, type?, _, _, _⟩ := h
    cases kind <;> cases type? <;> rfl
  range := objc_range_nodeOf h below
  supertypes := objc_supertypes_nodeOf h below

/-- **A dialect reads back what it writes in one node.** -/
theorem reads_nodeOf (d : Dialect) (h : Heading) (below : List Json) :
    Reads d (nodeOf d h below) h := by
  cases d
  · exact reads_swift h below
  · exact reads_objc h below

/-- The children of a node are listed as they are given. -/
theorem memberOrNull_childKey_nodeOf (d : Dialect) (h : Heading) (below : List Json) :
    Json.memberOrNull d.vocabulary.childKey (nodeOf d h below) = .arr below := by
  obtain ⟨kind, _, _, _, _, _, _⟩ := h
  cases d <;> cases kind <;> rfl

theorem childValues_nodeOf (d : Dialect) (h : Heading) (below : List Json) :
    childValues d.vocabulary (nodeOf d h below) = below := by
  rw [childValues, memberOrNull_childKey_nodeOf]

/-! ## Reading declarations -/

section

variable {d : Dialect} {unit : String} {node : Node} {h : Heading}

theorem Reads.symbolOf_eq (hread : Reads d node h) :
    symbolOf d.vocabulary unit node h.name h.kind = .ok (h.symbol d unit) := by
  refine symbolOf_eq_ok.2 ⟨_, _, hread.range, hread.supertypes, ?_⟩
  simp only [Heading.symbol, hread.accessWord, hread.rawKind, hread.typeName, Access.ofWord?,
    Option.getD_some, Json.ofText?]

theorem Reads.declaration_eq (hread : Reads d node h) : declaration d.vocabulary unit node =
    .ok (some { name := h.name, node, symbol := some (h.symbol d unit) }) := by
  rw [declaration_of_tag hread.tag hread.name (kindTag_ne d h.kind), classify?_kindTag]
  dsimp only
  rw [hread.symbolOf_eq]
  rfl

theorem Reads.roleOf_eq (hread : Reads d node h) : roleOf d.vocabulary node = .ok h.role? := by
  rw [roleOf, hread.name]
  dsimp only
  rw [hread.tag, ok_bind, Option.bind_some, memberRole?_kindTag, hread.accessWord, hread.typeName,
    Heading.role?]
  split <;> rfl

end

namespace Outline

theorem reads_node (d : Dialect) (o : Outline) : Reads d (o.node d) o.heading :=
  reads_nodeOf d o.heading _

/-! ## Members -/

theorem included_toJson (d : Dialect) (os : List Outline) :
    included d.vocabulary (os.map (toJson d)) = os.map (node d) := by
  rw [included, List.filterMap_map]
  have hnodes : os.filterMap (node? ∘ toJson d) = os.map (node d) := by
    rw [← List.filterMap_eq_map]
    refine List.filterMap_congr fun o _ => ?_
    rw [Function.comp_apply, toJson_eq]
    rfl
  rw [hnodes, List.filter_eq_self]
  intro node hnode
  obtain ⟨o, -, rfl⟩ := List.mem_map.1 hnode
  rw [(o.reads_node d).included]
  rfl

theorem children_node (d : Dialect) (o : Outline) :
    Ast.children d.vocabulary (o.node d) = .ok (o.children.map (node d)) := by
  rw [Ast.children, node, memberOrNull_childKey_nodeOf, Json.listedOrNone_arr, map_ok,
    included_toJson]

theorem membersIn_roles (o : Outline) :
    membersIn (o.children.filterMap (·.heading.role?)) = o.members := by
  simp only [membersIn, members, List.filterMap_filterMap, List.map_filterMap,
    ← List.filterMap_eq_map, List.filterMap_filter, MemberSet.mk.injEq]
  -- each of the three lists takes a child or leaves it, by its kind and the begin of its name
  refine ⟨?_, ?_, ?_⟩ <;> refine List.filterMap_congr fun child _ => ?_ <;>
    cases hkind : child.heading.kind <;>
    cases hinit : Text.startsWith child.heading.name "init" <;>
    simp [Heading.role?, isInitializer, initializerHead, hkind, hinit]

/-- **The members of a node** are those of its declaration. -/
theorem membersOf_node (d : Dialect) (o : Outline) :
    membersOf d.vocabulary (o.node d) = .ok o.members := by
  refine membersOf_eq_ok.2 ⟨_, o.children.map (·.heading.role?), children_node d o, ?_, ?_⟩
  · rw [List.forall₂_map_left_iff, List.forall₂_map_right_iff, List.forall₂_same]
    exact fun child _ => (child.reads_node d).roleOf_eq
  · rw [List.filterMap_map, ← membersIn_roles]
    rfl

/-! ## Units -/

/-- What a dialect reads off the node of a declaration. -/
def declarationIn (d : Dialect) (unit : String) (o : Outline) : Declaration where
  name := o.heading.name
  node := o.node d
  symbol := some (o.heading.symbol d unit)

theorem visited_toJson (d : Dialect) (o : Outline) :
    visited d.vocabulary (o.toJson d) = o.preorder.map (node d) := by
  induction o using Outline.induction with
  | declare heading children ih =>
    rw [toJson_eq, visited_included _ (reads_node d _).included, node, childValues_nodeOf,
      List.flatMap_map, preorder, List.map_cons, preorderAll_eq_flatMap, List.map_flatMap]
    exact congrArg _ (List.flatMap_congr ih)

theorem visited_dump (d : Dialect) (os : List Outline) : visited d.vocabulary (dump d os) =
    rootOf d (os.map (toJson d)) :: (preorderAll os).map (node d) := by
  have hincluded (below : List Json) : d.vocabulary.excluded (rootOf d below) = false := by
    cases d <;> rfl
  have hchildren (below : List Json) : childValues d.vocabulary (rootOf d below) = below := by
    cases d <;> rfl
  rw [dump, visited_included _ (hincluded _), hchildren, List.flatMap_map,
    preorderAll_eq_flatMap, List.map_flatMap]
  exact congrArg _ (List.flatMap_congr fun o _ => visited_toJson d o)

/-- The root of a dump declares nothing, and every outline is declared. -/
theorem declarations_dump (d : Dialect) (unit : String) (os : List Outline) :
    declarations d.vocabulary unit (dump d os) =
      .ok ((preorderAll os).map (declarationIn d unit)) := by
  have hroot (below : List Json) : declaration d.vocabulary unit (rootOf d below) = .ok none := by
    cases d <;> rfl
  have hnodes : ((preorderAll os).map (node d)).mapM (declaration d.vocabulary unit) =
      .ok ((preorderAll os).map fun o => some (declarationIn d unit o)) :=
    mapM_map_ok fun o _ => (o.reads_node d).declaration_eq
  rw [declarations, visited_dump, List.mapM_cons, hroot, ok_bind, hnodes, ok_bind]
  refine congrArg Except.ok ?_
  rw [List.filterMap_cons_none rfl, List.filterMap_map]
  exact List.filterMap_eq_map ▸ rfl

theorem memberOwners_declarationIn (d : Dialect) (unit : String) (os : List Outline) :
    memberOwners (os.map (declarationIn d unit)) (.ofSymbols (os.map (·.heading.symbol d unit))) =
      (owners os).map fun owner => (owner.1, owner.2.node d) := by
  have hfind (name : String) : (os.map (declarationIn d unit)).find? (·.name = name) =
      (os.find? (·.heading.name = name)).map (declarationIn d unit) := List.find?_map
  rw [memberOwners, owners, List.map_filterMap]
  simp only [SymbolTable.inKinds, SymbolTable.bucket_ofSymbols, List.filter_map,
    List.filterMap_flatMap, List.filterMap_map, hfind]
  refine List.flatMap_congr fun kind _ => List.filterMap_congr fun o _ => ?_
  simp only [Function.comp_apply, Heading.symbol, Json.text?, Option.bind_eq_bind,
    Option.bind_some]
  cases os.find? (·.heading.name = o.heading.name) <;> rfl

/-- **What is read off the dump of outlines** is what the outlines stand for. -/
theorem extract_dump (d : Dialect) (unit : String) (os : List Outline) :
    extract d unit (dump d os) = .ok {
      dialect := d
      symbols := .ofSymbols ((preorderAll os).map (·.heading.symbol d unit))
      members := memberTable (preorderAll os) } := by
  have hsymbols : ((preorderAll os).map (declarationIn d unit)).filterMap Declaration.symbol =
      (preorderAll os).map (·.heading.symbol d unit) := by
    rw [List.filterMap_map]
    exact List.filterMap_eq_map ▸ rfl
  have hsets : Table.mapValuesM (membersOf d.vocabulary) ((owners (preorderAll os)).map
      fun owner => (owner.1, owner.2.node d)) =
      .ok ((owners (preorderAll os)).map fun owner => (owner.1, owner.2.members)) :=
    mapValuesM_map_ok fun owner _ => membersOf_node d owner.2
  rw [extract, declarations_dump, ok_bind, hsymbols]
  dsimp only
  rw [memberOwners_declarationIn, hsets]
  rfl

end Outline

/-- **The two dialects read the same.**  Whatever is declared, and inside of what, both dumps of
    it can be read.  Their symbols differ in the words of the nodes alone, which are those of
    the dialects, and their members do not differ.  The buckets hold the declarations of their
    kinds, each of them before those inside of it, and each type has the members of the first
    declaration of its name. -/
theorem extract_dialects (unit : String) (forest : List Outline) :
    ∃ swift objc : UnitData,
      extract .swift unit (Outline.dump .swift forest) = .ok swift ∧
      extract .objc unit (Outline.dump .objc forest) = .ok objc ∧
      swift.dialect = .swift ∧ objc.dialect = .objc ∧
      (∀ kind, (swift.symbols.bucket kind).map (fun s => { s with rawKind := .null }) =
        (objc.symbols.bucket kind).map fun s => { s with rawKind := .null }) ∧
      swift.members = objc.members ∧
      (∀ kind, swift.symbols.bucket kind =
        ((Outline.preorderAll forest).filter (·.heading.kind = kind)).map
          (·.heading.symbol .swift unit)) ∧
      (∀ kind, objc.symbols.bucket kind =
        ((Outline.preorderAll forest).filter (·.heading.kind = kind)).map
          (·.heading.symbol .objc unit)) ∧
      swift.members = Outline.memberTable (Outline.preorderAll forest) := by
  have hbucket (d : Dialect) (kind : SymbolKind) :
      (SymbolTable.ofSymbols ((Outline.preorderAll forest).map
        (·.heading.symbol d unit))).bucket kind =
      ((Outline.preorderAll forest).filter (·.heading.kind = kind)).map
        (·.heading.symbol d unit) := List.filter_map
  refine ⟨_, _, Outline.extract_dump .swift unit forest, Outline.extract_dump .objc unit forest,
    rfl, rfl, fun kind => ?_, rfl, hbucket .swift, hbucket .objc, rfl⟩
  rw [hbucket, hbucket, List.map_map, List.map_map]
  rfl

end DeclGraph.Ast
