/-
  Which layer a field of the configuration comes from.

  A configuration is put together from five layers, each a mapping from sections to mappings of
  fields.  Every field has the value of the highest layer that sets it, whatever that layer and the
  layers above say about other fields.

  * `fields` is the table of all fields, with their defaults and how their values are read;
  * `at?_stack`: what stands in a stack of layers comes from the highest one that sets it;
  * `UserConfig.at?_sections`: what the file of the user sets;
  * `resolve_precedence`: the fields of a configuration that comes about.
-/
import DeclGraph.Proofs.Config.Merge
import DeclGraph.Proofs.Except

namespace DeclGraph

namespace Config

open Json

/-! ## Fields -/

/-- A field of a section of the configuration. -/
structure Field where
  sect : String
  key : String
  {α : Type}
  default : α
  read : Reader α
  get : Config → α

/-- All fields.  Destinations of the log may have home directories in them. -/
def fields (h : Host) : List Field :=
  [{ sect := "logging", key := "level", default := .info, read := scalar readLevel
     get := (·.logging.level) },
   { sect := "logging", key := "outputs", default := [{}], read := list (readOutput h)
     get := (·.logging.outputs) },
   { sect := "parsers", key := "sourcekitten_path", default := "sourcekitten"
     read := scalar readText, get := (·.parsers.sourceKitten) },
   { sect := "parsers", key := "clang_path", default := "clang", read := scalar readText
     get := (·.parsers.clang) },
   { sect := "parsers", key := "clang_args", default := [], read := list (scalar readText)
     get := (·.parsers.clangArgs) },
   { sect := "parsers", key := "max_concurrency", default := 8
     read := scalar (readCount "max_concurrency"), get := (·.parsers.maxConcurrency) },
   { sect := "parsers", key := "timeout_sec", default := .ofInt 60, read := scalar readNumber
     get := (·.parsers.timeout) },
   { sect := "parsers", key := "require_xcode_project", default := true, read := scalar readBool
     get := (·.parsers.requireProject) },
   { sect := "parsers", key := "skip_dirs", default := defaultSkipDirs
     read := list (scalar readText), get := (·.parsers.skipDirs) },
   { sect := "graph", key := "snapshot_name", default := "app.json", read := scalar readText
     get := (·.graph.snapshotName) },
   { sect := "graph", key := "extract_workers", default := 4
     read := scalar (readCount "extract_workers"), get := (·.graph.extractWorkers) },
   { sect := "limits", key := "search_default", default := 25, read := scalar readInt
     get := (·.limits.searchDefault) },
   { sect := "limits", key := "members_shown", default := 10, read := scalar readInt
     get := (·.limits.membersShown) },
   { sect := "limits", key := "references_shown", default := 5, read := scalar readInt
     get := (·.limits.referencesShown) },
   { sect := "limits", key := "overview_items", default := 10, read := scalar readInt
     get := (·.limits.overviewItems) },
   { sect := "limits", key := "largest_files", default := 5, read := scalar readInt
     get := (·.limits.largestFiles) }]

/-- The value that a layer sets a field to. -/
def Field.setting? (f : Field) (layer : List (String × Json)) : Option Json :=
  at? [f.sect, f.key] (.obj layer)

/-- The value of a field, read from what it is set to. -/
def Field.readFrom (f : Field) : Option Json → Except Rejection f.α
  | some j => f.read [f.sect, f.key] j
  | none => .ok f.default

/-- No field is a mapping. -/
theorem read_obj {host : Host} {f : Field} (hf : f ∈ fields host) (place : List String) (ms : List (String × Json))
    (x : f.α) : f.read place (.obj ms) ≠ .ok x := by
  intro h
  simp only [fields, List.mem_cons, List.not_mem_nil, or_false] at hf
  rcases hf with rfl | rfl | rfl | rfl | rfl | rfl | rfl | rfl | rfl | rfl | rfl | rfl | rfl | rfl |
    rfl | rfl <;> cases h

/-! ## Sections -/

/-- A section is missing, or a mapping that is read. -/
theorem exists_of_field {α : Type} {ms : List (String × Json)} {sect type : String} {default s : α}
    {read : List String → List (String × Json) → Except Rejection α}
    (h : field ms [] sect default (section_ type read) = .ok s) :
    (member? sect ms = none ∧ s = default) ∨
      ∃ inner, member? sect ms = some (.obj inner) ∧ read [sect] inner = .ok s := by
  rw [field] at h
  cases hsect : member? sect ms with
  | none =>
    rw [hsect] at h
    exact Or.inl ⟨rfl, (Except.ok.inj h).symm⟩
  | some j =>
    rw [hsect] at h
    cases j with
    | obj inner => exact Or.inr ⟨inner, rfl, h⟩
    | _ => cases h

/-- The value of a field, read from a mapping of sections. -/
def readAt {α : Type} (ms : List (String × Json)) (sect key : String) (default : α)
    (read : Reader α) : Except Rejection α :=
  match at? [sect, key] (.obj ms) with
  | some j => read [sect, key] j
  | none => .ok default

theorem readAt_of_none {α : Type} {ms : List (String × Json)} {sect : String}
    (h : member? sect ms = none) (key : String) (default : α) (read : Reader α) :
    readAt ms sect key default read = .ok default := by
  rw [readAt, at?_obj, h]
  rfl

theorem readAt_of_some {α : Type} {ms inner : List (String × Json)} {sect : String}
    (h : member? sect ms = some (.obj inner)) (key : String) (default : α) (read : Reader α) :
    readAt ms sect key default read = field inner [sect] key default read := by
  simp only [readAt, field, at?_obj, h, Option.bind_some, bind_at?_nil]
  rfl

theorem readAt_logging {host : Host} {ms : List (String × Json)} {s : LoggingConfig}
    (h : field ms [] "logging" {} (readLogging host) = .ok s) :
    readAt ms "logging" "level" .info (scalar readLevel) = .ok s.level ∧
      readAt ms "logging" "outputs" [{}] (list (readOutput host)) = .ok s.outputs := by
  rcases exists_of_field h with ⟨hnone, rfl⟩ | ⟨inner, hsome, hread⟩
  · simp [readAt_of_none hnone]
  · simp only [readAt_of_some hsome]
    simp only [bind_eq_ok] at hread
    obtain ⟨level, hlevel, outputs, houtputs, hs⟩ := hread
    obtain rfl := Except.ok.inj hs
    exact ⟨hlevel, houtputs⟩

theorem readAt_parsers {ms : List (String × Json)} {s : ParserConfig}
    (h : field ms [] "parsers" {} readParsers = .ok s) :
    readAt ms "parsers" "sourcekitten_path" "sourcekitten" (scalar readText) =
        .ok s.sourceKitten ∧
      readAt ms "parsers" "clang_path" "clang" (scalar readText) = .ok s.clang ∧
      readAt ms "parsers" "clang_args" [] (list (scalar readText)) = .ok s.clangArgs ∧
      readAt ms "parsers" "max_concurrency" 8 (scalar (readCount "max_concurrency")) =
        .ok s.maxConcurrency ∧
      readAt ms "parsers" "timeout_sec" (.ofInt 60) (scalar readNumber) = .ok s.timeout ∧
      readAt ms "parsers" "require_xcode_project" true (scalar readBool) = .ok s.requireProject ∧
      readAt ms "parsers" "skip_dirs" defaultSkipDirs (list (scalar readText)) =
        .ok s.skipDirs := by
  rcases exists_of_field h with ⟨hnone, rfl⟩ | ⟨inner, hsome, hread⟩
  · simp [readAt_of_none hnone]
  · simp only [readAt_of_some hsome]
    simp only [bind_eq_ok] at hread
    obtain ⟨_, h₁, _, h₂, _, h₃, _, h₄, _, h₅, _, h₆, _, h₇, hs⟩ := hread
    obtain rfl := Except.ok.inj hs
    exact ⟨h₁, h₂, h₃, h₄, h₅, h₆, h₇⟩

theorem readAt_graph {ms : List (String × Json)} {s : GraphConfig}
    (h : field ms [] "graph" {} readGraph = .ok s) :
    readAt ms "graph" "snapshot_name" "app.json" (scalar readText) = .ok s.snapshotName ∧
      readAt ms "graph" "extract_workers" 4 (scalar (readCount "extract_workers")) =
        .ok s.extractWorkers := by
  rcases exists_of_field h with ⟨hnone, rfl⟩ | ⟨inner, hsome, hread⟩
  · simp [readAt_of_none hnone]
  · simp only [readAt_of_some hsome]
    simp only [bind_eq_ok] at hread
    obtain ⟨_, h₁, _, h₂, hs⟩ := hread
    obtain rfl := Except.ok.inj hs
    exact ⟨h₁, h₂⟩

theorem readAt_limits {ms : List (String × Json)} {s : Limits}
    (h : field ms [] "limits" {} readLimits = .ok s) :
    readAt ms "limits" "search_default" 25 (scalar readInt) = .ok s.searchDefault ∧
      readAt ms "limits" "members_shown" 10 (scalar readInt) = .ok s.membersShown ∧
      readAt ms "limits" "references_shown" 5 (scalar readInt) = .ok s.referencesShown ∧
      readAt ms "limits" "overview_items" 10 (scalar readInt) = .ok s.overviewItems ∧
      readAt ms "limits" "largest_files" 5 (scalar readInt) = .ok s.largestFiles := by
  rcases exists_of_field h with ⟨hnone, rfl⟩ | ⟨inner, hsome, hread⟩
  · simp [readAt_of_none hnone]
  · simp only [readAt_of_some hsome]
    simp only [bind_eq_ok] at hread
    obtain ⟨_, h₁, _, h₂, _, h₃, _, h₄, _, h₅, hs⟩ := hread
    obtain rfl := Except.ok.inj hs
    exact ⟨h₁, h₂, h₃, h₄, h₅⟩

/-- **Every field of a configuration is read from what its members set it to.** -/
theorem readFrom_of_ofMembers {host : Host} {ms : List (String × Json)} {c : Config}
    (h : ofMembers host ms = .ok c) : ∀ f ∈ fields host, f.readFrom (f.setting? ms) = .ok (f.get c) := by
  have hread (f : Field) :
      f.readFrom (f.setting? ms) = readAt ms f.sect f.key f.default f.read := by
    rw [Field.setting?, readAt]
    cases at? [f.sect, f.key] (.obj ms) <;> rfl
  obtain ⟨c', hsections, hc⟩ := bind_eq_ok.1 h
  obtain rfl : c' = c := by
    split at hc
    · cases hc
    · exact Except.ok.inj hc
  simp only [ofSections, bind_eq_ok] at hsections
  obtain ⟨_, h₁, _, h₂, _, h₃, _, h₄, hc'⟩ := hsections
  obtain rfl := Except.ok.inj hc'
  simp only [hread]
  obtain ⟨a₁, a₂⟩ := readAt_logging h₁
  obtain ⟨b₁, b₂, b₃, b₄, b₅, b₆, b₇⟩ := readAt_parsers h₂
  obtain ⟨c₁, c₂⟩ := readAt_graph h₃
  obtain ⟨d₁, d₂, d₃, d₄, d₅⟩ := readAt_limits h₄
  simp only [fields, List.forall_mem_cons]
  exact ⟨a₁, a₂, b₁, b₂, b₃, b₄, b₅, b₆, b₇, c₁, c₂, d₁, d₂, d₃, d₄, d₅, nofun⟩

/-! ## Layers -/

/-- A mapping from sections to mappings of fields. -/
structure Sectioned (layer : List (String × Json)) : Prop where
  nodup : (layer.map Prod.fst).Nodup
  sections : ∀ m ∈ layer, ∃ ms, m.2 = .obj ms ∧ (ms.map Prod.fst).Nodup

theorem sectioned_map (ss : List (String × List (String × Json))) (h : (ss.map Prod.fst).Nodup)
    (hs : ∀ s ∈ ss, (s.2.map Prod.fst).Nodup) :
    Sectioned (ss.map fun s => (s.1, .obj s.2)) where
  nodup := by simpa [Function.comp_def] using h
  sections m hm := by
    obtain ⟨s, hs', rfl⟩ := List.mem_map.1 hm
    exact ⟨s.2, rfl, hs s hs'⟩

theorem Sectioned.of_member? {layer : List (String × Json)} (h : Sectioned layer) {sect : String}
    {j : Json} (hj : member? sect layer = some j) :
    ∃ ms, j = .obj ms ∧ (ms.map Prod.fst).Nodup :=
  h.sections (sect, j) ((Table.lookup_eq_some_iff_mem h.nodup).1 hj)

theorem nodup_merge {lower upper : List (String × Json)} (hlower : (lower.map Prod.fst).Nodup)
    (hupper : (upper.map Prod.fst).Nodup) : ((merge lower upper).map Prod.fst).Nodup := by
  rw [map_fst_merge hupper, List.nodup_append]
  refine ⟨hlower, hupper.filter _, ?_⟩
  rintro a ha b hb rfl
  simp only [List.mem_filter, decide_eq_true_eq] at hb
  exact hb.2 ha

theorem Sectioned.merge {below top : List (String × Json)} (hbelow : Sectioned below)
    (htop : Sectioned top) : Sectioned (merge below top) := by
  have hnodup := nodup_merge hbelow.nodup htop.nodup
  refine ⟨hnodup, fun m hm => ?_⟩
  have hmember := (Table.lookup_eq_some_iff_mem hnodup).2 hm
  change member? m.1 (Config.merge below top) = some m.2 at hmember
  rw [member?_merge m.1 htop.nodup] at hmember
  cases htop' : member? m.1 top with
  | none =>
    rw [htop'] at hmember
    exact hbelow.of_member? hmember
  | some v =>
    obtain ⟨upper, rfl, hupper⟩ := htop.of_member? htop'
    cases hbelow' : member? m.1 below with
    | none =>
      rw [htop', hbelow'] at hmember
      exact ⟨upper, (Option.some.inj hmember).symm, hupper⟩
    | some base =>
      obtain ⟨lower, rfl, hlower⟩ := hbelow.of_member? hbelow'
      rw [htop', hbelow', Option.some.injEq, cover_obj_obj] at hmember
      exact ⟨_, hmember.symm, nodup_merge hlower hupper⟩

/-- What one layer over another sets a field to. -/
theorem at?_merge {below top : List (String × Json)} (hbelow : Sectioned below)
    (htop : Sectioned top) (sect key : String) :
    at? [sect, key] (.obj (Config.merge below top)) =
      match at? [sect, key] (.obj top), at? [sect, key] (.obj below) with
      | none, base => base
      | some v, none => some v
      | some v, some base => some (cover base v) := by
  simp only [at?_obj, member?_merge sect htop.nodup]
  cases htop' : member? sect top with
  | none => simp
  | some v =>
    obtain ⟨upper, rfl, hupper⟩ := htop.of_member? htop'
    cases hbelow' : member? sect below with
    | none =>
      simp only [Option.bind_some, Option.bind_none, at?_obj, bind_at?_nil]
      cases member? key upper <;> rfl
    | some base =>
      obtain ⟨lower, rfl, hlower⟩ := hbelow.of_member? hbelow'
      simp only [cover_obj_obj, Option.bind_some, at?_obj, bind_at?_nil]
      exact member?_merge key hupper

/-- The layers above a bottom layer put over it, the highest first. -/
def stack (layers : List (List (String × Json))) (bottom : List (String × Json)) :
    List (String × Json) :=
  layers.foldr (fun top below => merge below top) bottom

theorem sectioned_stack {layers : List (List (String × Json))} {bottom : List (String × Json)}
    (hlayers : ∀ l ∈ layers, Sectioned l) (hbottom : Sectioned bottom) :
    Sectioned (stack layers bottom) := by
  induction layers with
  | nil => exact hbottom
  | cons top layers ih =>
    have hbelow := ih fun l hl => hlayers l (List.mem_cons_of_mem top hl)
    exact hbelow.merge (hlayers top List.mem_cons_self)

/-- **A leaf in a stack of layers is that of the highest layer that binds its place,** and a place
    that is free in the stack is free in all layers. -/
theorem at?_stack {layers : List (List (String × Json))} {bottom : List (String × Json)}
    (hlayers : ∀ l ∈ layers, Sectioned l) (hbottom : Sectioned bottom) (sect key : String)
    (hleaf : ∀ v, at? [sect, key] (.obj (stack layers bottom)) = some v → ¬ v.IsMapping) :
    at? [sect, key] (.obj (stack layers bottom)) =
      (layers ++ [bottom]).findSome? fun l => at? [sect, key] (.obj l) := by
  induction layers with
  | nil => simp [stack]
  | cons top layers ih =>
    have htop := hlayers top List.mem_cons_self
    have hrest := fun l hl => hlayers l (List.mem_cons_of_mem top hl)
    have hbelow := sectioned_stack hrest hbottom
    have hstack : at? [sect, key] (.obj (stack (top :: layers) bottom)) = _ :=
      at?_merge hbelow htop sect key
    rw [hstack] at hleaf ⊢
    rw [List.cons_append, List.findSome?_cons]
    cases hset : at? [sect, key] (.obj top) with
    | none =>
      simp only [hset] at hleaf ⊢
      exact ih hrest hleaf
    | some v =>
      simp only [hset] at hleaf ⊢
      cases hbase : at? [sect, key] (.obj (stack layers bottom)) with
      | none => rfl
      | some base =>
        -- a mapping over another value is none that a leaf could hide
        simp only [hbase] at hleaf ⊢
        have hv : ¬ v.IsMapping := fun h => hleaf _ rfl (isMapping_cover_iff.2 h)
        rw [cover_of_not_isMapping base hv]

end Config

/-! ## The file of the user -/

namespace UserConfig

open Config
open Json hiding readText readItems

/-- The key of the user's file that sets a field of the configuration. -/
def keyOf? (sect key : String) : Option String :=
  if sect = "graph" ∧ key = "snapshot_name" then some "snapshot_name"
  else if sect = "logging" ∧ key = "level" then some "log_level"
  else if sect = "parsers" ∧ key = "clang_args" then some "clang_args"
  else none

/-- The file of the user is a mapping from texts whose fields are valid. -/
def ReadAs (h : Host) (files : FileTree) (root : Path) (ms : List (String × Json)) : Prop :=
  ∃ text node u, files.textAt? (path root) = .ok (some text) ∧
    Yaml.compose h.configDepth text = .ok node ∧ node.value = .ok (.obj ms) ∧
    node.hasOddKey = false ∧ ofMembers ms = .ok u

theorem ReadAs.unique {h : Host} {files : FileTree} {root : Path} {ms ms' : List (String × Json)}
    (hms : ReadAs h files root ms) (hms' : ReadAs h files root ms') : ms = ms' := by
  obtain ⟨text, node, u, htext, hnode, hvalue, -⟩ := hms
  obtain ⟨text', node', u', htext', hnode', hvalue', -⟩ := hms'
  obtain rfl := Option.some.inj (Except.ok.inj (htext.symm.trans htext'))
  obtain rfl := Except.ok.inj (hnode.symm.trans hnode')
  exact Json.obj.inj (Except.ok.inj (hvalue.symm.trans hvalue'))

/-! ### Values that are written as they are read -/

theorem readText_eq_ok {j : Json} {s : String} : readText j = .ok s ↔ j = .str s := by
  cases j <;> simp [readText]

theorem readLevel_eq_ok {j : Json} {l : LogLevel} : readLevel j = .ok l ↔ j = .str l.name := by
  rw [readLevel]
  constructor
  · intro h
    split at h
    · rename_i l' hl
      obtain rfl := Except.ok.inj h
      obtain ⟨s, hs, hname⟩ := Option.bind_eq_some_iff.1 hl
      rw [LogLevel.ofName?] at hname
      have hl' : (l'.name == s) = true := List.find?_some (p := fun l : LogLevel => l.name == s) hname
      rw [text?_eq_some.1 hs, ← eq_of_beq hl']
    · cases h
  · rintro rfl
    simp [text?, LogLevel.ofName?_name]

theorem mapError_scalar {α : Type} {convert : Json → Except Reason α} {place : List String}
    {j : Json} {x : α} : scalar convert place j = .ok x ↔ convert j = .ok x :=
  mapError_eq_ok

theorem readItems_readText {place : List String} {i : Nat} {js : List Json} {xs : List String} :
    readItems (scalar readText) place i js = .ok xs ↔ js = xs.map .str := by
  induction js generalizing i xs with
  | nil => cases xs <;> simp [readItems]
  | cons j js ih =>
    simp only [readItems, bind_eq_ok, mapError_scalar, readText_eq_ok, ih]
    constructor
    · rintro ⟨x, rfl, ys, rfl, h⟩
      obtain rfl := Except.ok.inj h
      rfl
    · intro h
      cases xs with
      | nil => cases h
      | cons x xs =>
        rw [List.map_cons, List.cons.injEq] at h
        exact ⟨x, h.1, xs, h.2, rfl⟩

theorem list_readText_eq_ok {place : List String} {j : Json} {xs : List String} :
    list (scalar readText) place j = .ok xs ↔ j = .ofTexts xs := by
  cases j with
  | arr items => simp [list, readItems_readText, ofTexts]
  | _ => simp [list, ofTexts]

/-- A field that is read is set to its value, if it is there. -/
theorem member?_of_setField {α : Type} {ms : List (String × Json)} {key : String} {read : Reader α}
    {toJson : α → Json} (hread : ∀ place j x, read place j = .ok x ↔ j = toJson x)
    {value : Option α} (h : setField ms key read = .ok value) :
    member? key ms = value.map toJson := by
  rw [setField, field] at h
  cases hmember : member? key ms with
  | none =>
    rw [hmember] at h
    rw [← Except.ok.inj h]
    rfl
  | some j =>
    rw [hmember] at h
    obtain ⟨x, hx, hvalue⟩ := map_eq_ok.1 h
    rw [(hread _ j x).1 hx, ← hvalue]
    rfl

theorem member?_singleton (k key : String) (v : Json) :
    member? k [(key, v)] = if k = key then some v else none := by
  by_cases h : k = key
  · simp [member?, h]
  · simp [member?, List.lookup_cons, beq_eq_false_iff_ne.2 h, h]

theorem member?_toList {α : Type} (k sect : String) (f : α → Json) (value : Option α) :
    member? k (value.map fun x => (sect, f x)).toList =
      if k = sect then value.map f else none := by
  cases value with
  | none => simp [member?]
  | some x => exact member?_singleton k sect (f x)

theorem bind_at?_obj {α : Type} (key k : String) (f : α → Json) (value : Option α) :
    (value.map fun x => obj [(k, f x)]).bind (at? [key]) =
      if key = k then value.map f else none := by
  cases value with
  | none => simp
  | some x => simp [member?_singleton]

theorem member?_sections (u : UserConfig) (sect : String) :
    member? sect u.sections =
      ((if sect = "graph" then u.snapshotName.map fun n => obj [("snapshot_name", .str n)]
        else none).or
      (if sect = "logging" then u.logLevel.map fun l => obj [("level", .str l.name)]
        else none)).or
      (if sect = "parsers" then u.clangArgs.map fun args => obj [("clang_args", .ofTexts args)]
        else none) := by
  simp only [← member?_toList]
  rw [sections, member?, List.lookup_append, List.lookup_append]
  rfl

/-- **The file of the user sets what it holds in its three fields.** -/
theorem at?_sections {ms : List (String × Json)} {u : UserConfig} (h : ofMembers ms = .ok u)
    (sect key : String) :
    at? [sect, key] (.obj u.sections) = (keyOf? sect key).bind fun k => member? k ms := by
  simp only [ofMembers, bind_eq_ok] at h
  obtain ⟨name, hname, level, hlevel, args, hargs, hu⟩ := h
  obtain rfl := Except.ok.inj hu
  have hname : member? "snapshot_name" ms = name.map .str :=
    member?_of_setField (fun _ _ _ => mapError_scalar.trans readText_eq_ok) hname
  have hlevel : member? "log_level" ms = level.map fun l => .str l.name :=
    member?_of_setField (fun _ _ _ => mapError_scalar.trans readLevel_eq_ok) hlevel
  have hargs : member? "clang_args" ms = args.map .ofTexts :=
    member?_of_setField (fun _ _ _ => list_readText_eq_ok) hargs
  rw [at?_obj, member?_sections]
  by_cases h₁ : sect = "graph"
  · by_cases hkey : key = "snapshot_name" <;> simp [keyOf?, h₁, hkey, hname, bind_at?_obj]
  by_cases h₂ : sect = "logging"
  · by_cases hkey : key = "level" <;> simp [keyOf?, h₂, hkey, hlevel, bind_at?_obj]
  by_cases h₃ : sect = "parsers"
  · by_cases hkey : key = "clang_args" <;> simp [keyOf?, h₃, hkey, hargs, bind_at?_obj]
  · simp [keyOf?, h₁, h₂, h₃]

theorem sectioned_sections (u : UserConfig) : Sectioned u.sections := by
  obtain ⟨name, level, args⟩ := u
  constructor
  · cases name <;> cases level <;> cases args <;> simp [sections]
  · cases name <;> cases level <;> cases args <;> simp [sections]

/-- What is read off a document: its fields if it is a mapping from texts whose fields are valid,
    else nothing. -/
theorem ofNode_cases {node : Yaml.Node} {u : UserConfig} (h : ofNode node = .ok u) :
    (∃ ms, node.value = .ok (.obj ms) ∧ node.hasOddKey = false ∧ ofMembers ms = .ok u) ∨
      (¬ ∃ ms u', node.value = .ok (.obj ms) ∧ node.hasOddKey = false ∧ ofMembers ms = .ok u') ∧
        u = {} := by
  obtain ⟨j, hj, h⟩ := bind_eq_ok.1 h
  rw [hj]
  cases j with
  | obj ms =>
    obtain rfl := Except.ok.inj h
    cases hodd : node.hasOddKey with
    | true => exact Or.inr ⟨by simp, rfl⟩
    | false =>
      cases hu : ofMembers ms with
      | ok u' => exact Or.inl ⟨ms, rfl, rfl, hu⟩
      | error r => exact Or.inr ⟨by simp [hu], rfl⟩
  | _ => exact Or.inr ⟨by simp, (Except.ok.inj h).symm⟩

/-- The file of the user is read as a mapping, or it sets nothing. -/
theorem load_cases {h : Host} {root : Path} {files : FileTree} {u : UserConfig}
    (hload : load h root files = .ok u) :
    (∃ ms, ReadAs h files root ms ∧ ofMembers ms = .ok u) ∨
      (¬ ∃ ms, ReadAs h files root ms) ∧ u.sections = [] := by
  obtain ⟨text?, htext, hload⟩ := bind_eq_ok.1 hload
  cases text? with
  | none =>
    obtain rfl := Except.ok.inj hload
    refine Or.inr ⟨?_, rfl⟩
    rintro ⟨ms, text, node, u, htext', -⟩
    cases htext.symm.trans htext'
  | some text =>
    rw [ofText?, ofText] at hload
    cases hnode : Yaml.compose h.configDepth text with
    | error flaw =>
      rw [hnode] at hload
      refine Or.inr ⟨?_, ?_⟩
      · rintro ⟨ms, text', node, u, htext', hnode', -⟩
        obtain rfl := Option.some.inj (Except.ok.inj (htext.symm.trans htext'))
        cases hnode.symm.trans hnode'
      · cases flaw with
        | malformed =>
          obtain rfl := Except.ok.inj hload
          rfl
        | _ => cases hload
    | ok node =>
      rw [hnode, ok_bind] at hload
      have hread (ms : List (String × Json)) : ReadAs h files root ms ↔
          ∃ u', node.value = .ok (.obj ms) ∧ node.hasOddKey = false ∧ ofMembers ms = .ok u' := by
        constructor
        · rintro ⟨text', node', u', htext', hnode', hms⟩
          obtain rfl := Option.some.inj (Except.ok.inj (htext.symm.trans htext'))
          obtain rfl := Except.ok.inj (hnode.symm.trans hnode')
          exact ⟨u', hms⟩
        · rintro ⟨u', hms⟩
          exact ⟨text, node, u', htext, hnode, hms⟩
      simp only [hread]
      cases hu : ofNode node with
      | ok u' =>
        rw [hu] at hload
        obtain rfl := Except.ok.inj hload
        rcases ofNode_cases hu with ⟨ms, hvalue, hodd, hms⟩ | ⟨hnone, rfl⟩
        · exact Or.inl ⟨ms, ⟨u', hvalue, hodd, hms⟩, hms⟩
        · exact Or.inr ⟨hnone, rfl⟩
      | error flaw =>
        rw [hu] at hload
        cases flaw with
        | malformed =>
          obtain rfl := Except.ok.inj hload
          refine Or.inr ⟨?_, rfl⟩
          rintro ⟨ms, u', hvalue, -⟩
          rw [ofNode, hvalue, ok_bind] at hu
          cases hu
        | _ => cases hload

end UserConfig

namespace Config

/-! ## The configuration -/

/-- The layer of the file that the caller or the environment names. -/
def Sources.namedLayer (s : Sources) : Except Failure (List (String × Json)) := do
  match ← s.namedFile.mapError .fault with
  | some path => membersOfNamedFile s.host path s.files s.workDir
  | none => return []

theorem fileLayer_eq (s : Sources) (root : Path) :
    s.fileLayer root = do
      let user ← (UserConfig.load s.host root s.files).mapError .fault
      let global ← membersOfFile s.host s.globalFile s.files
      let named ← s.namedLayer
      return merge (merge global user.sections) named := by
  rw [Sources.fileLayer, Sources.namedLayer]
  cases s.namedFile with
  | error f => rfl
  | ok path? => cases path? <;> rfl

/-- **Every field has the value of the highest layer that sets it.**  The layers are the overrides
    of the caller, the environment variables, the named file, the file of the user and the global
    file.  Whatever the layers above it say about other fields, the value of the first layer to set a
    field is the one that is read; a field that no layer sets has its default. -/
theorem resolve_precedence {s : Sources} {root : Path} {c : Config} (h : resolve s root = .ok c) :
    ∃ (user : UserConfig) (environment named global : List (String × Json)),
      UserConfig.load s.host root s.files = .ok user ∧
      environmentLayer s.host s.environment = .ok environment ∧ s.namedLayer = .ok named ∧
      membersOfFile s.host s.globalFile s.files = .ok global ∧
      (∀ ms, UserConfig.ReadAs s.host s.files root ms → ∀ sect key,
        Json.at? [sect, key] (.obj user.sections) =
          (UserConfig.keyOf? sect key).bind fun k => Json.member? k ms) ∧
      ((¬ ∃ ms, UserConfig.ReadAs s.host s.files root ms) → user.sections = []) ∧
      ((∀ layer ∈ [s.overrides, environment, named, global], Sectioned layer) →
        ∀ f ∈ fields s.host,
          (∀ above layer below v,
            [s.overrides, environment, named, user.sections, global] = above ++ layer :: below →
            (∀ l ∈ above, f.setting? l = none) → f.setting? layer = some v →
            f.read [f.sect, f.key] v = .ok (f.get c)) ∧
          ((∀ l ∈ [s.overrides, environment, named, user.sections, global],
              f.setting? l = none) →
            f.get c = f.default)) := by
  obtain ⟨files, hfiles, h⟩ := bind_eq_ok.1 h
  obtain ⟨environment, henvironment, h⟩ := bind_eq_ok.1 h
  have hmembers := mapError_eq_ok.1 h
  rw [fileLayer_eq] at hfiles
  obtain ⟨user, huser, hfiles⟩ := bind_eq_ok.1 hfiles
  obtain ⟨global, hglobal, hfiles⟩ := bind_eq_ok.1 hfiles
  obtain ⟨named, hnamed, hfiles⟩ := bind_eq_ok.1 hfiles
  obtain rfl := Except.ok.inj hfiles
  have huser := mapError_eq_ok.1 huser
  refine ⟨user, environment, named, global, huser, henvironment, hnamed, hglobal, ?_⟩
  refine ⟨?_, ?_, fun hlayers f hf => ?_⟩
  · intro ms hms sect key
    rcases UserConfig.load_cases huser with ⟨ms', hms', hu⟩ | ⟨hnone, -⟩
    · rw [hms.unique hms']
      exact UserConfig.at?_sections hu sect key
    · exact absurd ⟨ms, hms⟩ hnone
  · intro hnone
    rcases UserConfig.load_cases huser with ⟨ms, hms, -⟩ | ⟨-, hnil⟩
    · exact absurd ⟨ms, hms⟩ hnone
    · exact hnil
  have hread : f.readFrom (f.setting? (stack [s.overrides, environment, named, user.sections] global)) =
      .ok (f.get c) := readFrom_of_ofMembers hmembers f hf
  -- what is set in the stack is read, so that it is no mapping
  have hleaf (v : Json) (hv : f.setting? (stack [s.overrides, environment, named, user.sections] global) =
      some v) : ¬ v.IsMapping := by
    rintro ⟨ms, rfl⟩
    rw [hv] at hread
    exact read_obj hf _ ms _ hread
  have hupper : ∀ l ∈ [s.overrides, environment, named, user.sections], Sectioned l := by
    intro l hl
    simp only [List.mem_cons, List.not_mem_nil, or_false] at hl
    rcases hl with rfl | rfl | rfl | rfl
    · exact hlayers _ (by simp)
    · exact hlayers _ (by simp)
    · exact hlayers _ (by simp)
    · exact UserConfig.sectioned_sections _
  have hstack := at?_stack hupper (hlayers global (by simp)) f.sect f.key hleaf
  change f.setting? _ = [s.overrides, environment, named, user.sections, global].findSome? f.setting? at hstack
  rw [hstack] at hread
  refine ⟨?_, ?_⟩
  · intro above layer below v hsplit habove hv
    rwa [hsplit, List.findSome?_append, List.findSome?_eq_none_iff.2 habove, Option.none_or,
      List.findSome?_cons, hv] at hread
  · intro hnone
    rw [List.findSome?_eq_none_iff.2 hnone] at hread
    exact (Except.ok.inj hread).symm

/-- A global file, a file of the user, a variable and an override that set fields beside each
    other. -/
def fourLayers : Sources where
  files := .dir [("global.yaml", .file (Utf8.encode
      "limits:\n  members_shown: 3\n  overview_items: 4\nlogging:\n  level: WARNING\n")),
    (".symgraph", .dir [("config.yaml", .file (Utf8.encode "log_level: ERROR\n"))])]
  globalFile := Path.ofText "/global.yaml"
  environment := [("SYMGRAPH__LIMITS__MEMBERS_SHOWN", "6")]
  overrides := [("limits", .obj [("references_shown", .int 7)])]

/-- Each of them has its say. -/
theorem resolve_precedence_fourLayers : ∃ c, resolve fourLayers .top = .ok c ∧
    (∀ layer ∈ [fourLayers.overrides, [("limits", .obj [("members_shown", .str "6")])], [],
      [("limits", .obj [("members_shown", .int 3), ("overview_items", .int 4)]),
        ("logging", .obj [("level", .str "WARNING")])]], Sectioned layer) ∧
    c.limits.referencesShown = 7 ∧ c.limits.membersShown = 6 ∧ c.limits.overviewItems = 4 ∧
    c.logging.level = .error ∧ c.graph.snapshotName = "app.json" := by
  obtain ⟨c, hc⟩ := exists_ok_of_isSome (x := resolve fourLayers .top) (by decide +kernel)
  obtain ⟨user, environment, named, global, huser, henvironment, hnamed, hglobal, -, -, h⟩ :=
    resolve_precedence hc
  have henvironment' : environmentLayer {} fourLayers.environment =
      .ok [("limits", .obj [("members_shown", .str "6")])] :=
    toOption_eq_some.1 (by decide +kernel)
  have hnamed' : fourLayers.namedLayer = .ok [] := toOption_eq_some.1 (by decide +kernel)
  have hglobal' : membersOfFile {} fourLayers.globalFile fourLayers.files =
      .ok [("limits", .obj [("members_shown", .int 3), ("overview_items", .int 4)]),
        ("logging", .obj [("level", .str "WARNING")])] :=
    toOption_eq_some.1 (by decide +kernel)
  have huser' : UserConfig.load {} .top fourLayers.files = .ok { logLevel := some .error } :=
    toOption_eq_some.1 (by decide +kernel)
  obtain rfl := Except.ok.inj (henvironment.symm.trans henvironment')
  obtain rfl := Except.ok.inj (hnamed.symm.trans hnamed')
  obtain rfl := Except.ok.inj (hglobal.symm.trans hglobal')
  obtain rfl := Except.ok.inj (huser.symm.trans huser')
  have hsectioned : ∀ layer ∈ [fourLayers.overrides,
      [("limits", .obj [("members_shown", .str "6")])], [],
      [("limits", .obj [("members_shown", .int 3), ("overview_items", .int 4)]),
        ("logging", .obj [("level", .str "WARNING")])]], Sectioned layer := by
    simp only [List.forall_mem_cons]
    exact ⟨sectioned_map [("limits", [("references_shown", .int 7)])] (by decide)
        (by decide),
      sectioned_map [("limits", [("members_shown", .str "6")])] (by decide) (by decide),
      sectioned_map [] (by decide) (by decide),
      sectioned_map [("limits", [("members_shown", .int 3), ("overview_items", .int 4)]),
        ("logging", [("level", .str "WARNING")])] (by decide) (by decide), nofun⟩
  have hfield := h hsectioned
  refine ⟨c, hc, hsectioned, ?_, ?_, ?_, ?_, ?_⟩
  · have := (hfield (fields {})[13] (by simp [fields])).1 [] _ _ (.int 7) rfl nofun (by decide)
    exact (Except.ok.inj this).symm
  · have := (hfield (fields {})[12] (by simp [fields])).1 [_] _ _ (.str "6") rfl (by decide) (by decide)
    exact (Except.ok.inj this).symm
  · have := (hfield (fields {})[14] (by simp [fields])).1 [_, _, _, _] _ _ (.int 4) rfl (by decide)
      (by decide)
    exact (Except.ok.inj this).symm
  · have := (hfield (fields {})[0] (by simp [fields])).1 [_, _, _] _ _ (.str "ERROR") rfl (by decide)
      (by decide)
    exact (Except.ok.inj this).symm
  · exact (hfield (fields {})[9] (by simp [fields])).2 (by decide)

end Config

end DeclGraph
