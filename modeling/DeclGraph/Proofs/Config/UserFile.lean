/-
  The file of the user, written and read.

  Levels and lists come back as they were written, and so does a name that is read as a text.  A field
  that has its default is written as a remark.

  * `written`: the fields that stand in the file;
  * `document_toText`: the file is a document of these fields;
  * `ofText_toText`: a file is read as its fields if the name stands for itself.
-/
import DeclGraph.Proofs.Config.Precedence
import DeclGraph.Proofs.Text.Utf8
import DeclGraph.Proofs.Yaml.Document

namespace DeclGraph

namespace UserConfig

open Config Json Yaml

/-! ## Fields -/

/-- Whether two configurations have the same values. -/
structure SameValues (u v : UserConfig) : Prop where
  snapshotName : u.snapshotNameOrDefault = v.snapshotNameOrDefault
  logLevel : u.logLevelOrDefault = v.logLevelOrDefault
  clangArgs : u.clangArgsOrDefault = v.clangArgsOrDefault

/-- The fields that stand in the file: those that have not their defaults. -/
def written (u : UserConfig) : UserConfig where
  snapshotName :=
    if u.snapshotNameOrDefault = ({} : GraphConfig).snapshotName then none
    else some u.snapshotNameOrDefault
  logLevel :=
    if u.logLevelOrDefault = ({} : LoggingConfig).level then none else some u.logLevelOrDefault
  clangArgs := if u.clangArgsOrDefault = [] then none else some u.clangArgsOrDefault

theorem getD_ite {α : Type} [DecidableEq α] (x d : α) :
    (if x = d then none else some x).getD d = x := by
  split
  · rename_i h
    rw [h]
    rfl
  · rfl

theorem sameValues_written (u : UserConfig) : u.written.SameValues u where
  snapshotName := getD_ite _ _
  logLevel := getD_ite _ _
  clangArgs := getD_ite _ _

/-- The level and the arguments in the file. -/
def furtherMembers (u : UserConfig) : List (String × Json) :=
  (u.logLevel.map fun l => ("log_level", .str l.name)).toList ++
    (u.clangArgs.map fun args => ("clang_args", .ofTexts args)).toList

/-- The fields in the file. -/
def members (u : UserConfig) : List (String × Json) :=
  (u.snapshotName.map fun n => ("snapshot_name", .str n)).toList ++ u.furtherMembers

theorem nodup_furtherMembers (u : UserConfig) : (u.furtherMembers.map Prod.fst).Nodup ∧
    "snapshot_name" ∉ u.furtherMembers.map Prod.fst := by
  obtain ⟨_, _ | l, _ | args⟩ := u <;> simp [furtherMembers]

theorem nodup_members (u : UserConfig) : (u.members.map Prod.fst).Nodup := by
  obtain ⟨_ | n, l, args⟩ := u
  · exact (nodup_furtherMembers _).1
  · exact List.nodup_cons.2 ⟨(nodup_furtherMembers _).2, (nodup_furtherMembers _).1⟩

/-- The fields are read as they stand in the file. -/
theorem ofMembers_members (u : UserConfig) : ofMembers u.members = .ok u := by
  have htext (place : List String) (n : String) : scalar readText place (.str n) = .ok n :=
    mapError_scalar.2 (readText_eq_ok.2 rfl)
  have hlevel (place : List String) (l : LogLevel) : scalar readLevel place (.str l.name) = .ok l :=
    mapError_scalar.2 (readLevel_eq_ok.2 rfl)
  have hlist (place : List String) (args : List String) :
      list (scalar readText) place (.ofTexts args) = .ok args :=
    list_readText_eq_ok.2 rfl
  obtain ⟨_ | n, _ | l, _ | args⟩ := u <;>
    simp [ofMembers, members, furtherMembers, setField, field, member?, List.lookup_cons, htext,
      hlevel, hlist]

/-! ## Lines -/

/-- What stands before the name. -/
def nameRemarks : List Char :=
  linesText ["# symgraph configuration", "", "# Snapshot file written at the repository root"]

/-- What stands between the name and the level. -/
def levelRemarks : List Char :=
  linesText ["", "# Log level: DEBUG, INFO, WARNING, ERROR, CRITICAL"]

/-- What stands between the level and the arguments. -/
def argsRemarks : List Char :=
  linesText ["", "# Extra clang arguments for Objective-C sources (e.g. -I include)"]

/-- The line of the name. -/
def nameLine (u : UserConfig) : List Char :=
  (fieldLine "snapshot_name" u.snapshotNameOrDefault ({} : GraphConfig).snapshotName).toList

/-- The line of the level. -/
def levelLine (u : UserConfig) : List Char :=
  (fieldLine "log_level" u.logLevelOrDefault.name ({} : LoggingConfig).level.name).toList

/-- The lines of the arguments. -/
def argsLines (u : UserConfig) : List Char :=
  if u.clangArgsOrDefault = [] then "# clang_args: []".toList
  else (flowList "clang_args" u.clangArgsOrDefault).toList

/-- What stands after the name. -/
def furtherText (u : UserConfig) : List Char :=
  levelRemarks ++ (u.levelLine ++ '\n' :: (argsRemarks ++ (u.argsLines ++ ['\n'])))

theorem toList_toText (u : UserConfig) :
    u.toText.toList = nameRemarks ++ (u.nameLine ++ '\n' :: u.furtherText) := by
  have hlines : u.lines.map String.toList = ["# symgraph configuration".toList, "".toList,
      "# Snapshot file written at the repository root".toList, u.nameLine, "".toList,
      "# Log level: DEBUG, INFO, WARNING, ERROR, CRITICAL".toList, u.levelLine, "".toList,
      "# Extra clang arguments for Objective-C sources (e.g. -I include)".toList, u.argsLines,
      []] := by
    unfold lines argsLines
    cases u.clangArgsOrDefault <;> rfl
  have htext : u.toText.toList = ['\n'].intercalate (u.lines.map String.toList) := by
    unfold toText
    exact String.toList_intercalate
  unfold furtherText nameRemarks levelRemarks argsRemarks linesText
  rw [htext, hlines]
  simp only [List.intercalate_cons_cons, List.intercalate_singleton, List.flatMap_cons,
    List.flatMap_nil, List.append_assoc, List.cons_append, List.nil_append, List.append_nil]

/-! ## The file as a document -/

theorem isName_key (key : String) (h : key ∈ ["snapshot_name", "log_level", "clang_args"]) :
    IsName key.toList ∧ Yaml.isText key = true := by
  simp only [List.mem_cons, List.not_mem_nil, or_false] at h
  rcases h with rfl | rfl | rfl <;> exact ⟨⟨by decide, by decide⟩, by decide⟩

theorem isName_level (l : LogLevel) : IsName l.name.toList ∧ Yaml.isText l.name = true := by
  cases l <;> exact ⟨⟨by decide, by decide⟩, by decide⟩

theorem remarks_name : Remarks nameRemarks := remarks_linesText (by decide)

theorem remarks_level : Remarks levelRemarks := remarks_linesText (by decide)

theorem remarks_args : Remarks argsRemarks := remarks_linesText (by decide)

theorem toList_fieldLine {key value default : String} (h : value ≠ default) :
    (fieldLine key value default).toList = key.toList ++ ':' :: ' ' :: value.toList := by
  unfold fieldLine
  rw [if_neg h]
  simp

/-- A line that is a remark or holds a field. -/
theorem document_fieldLine {key value default : String} {j : Json} {ms : List (String × Json)}
    {r w : List Char} (hkey : key ∈ ["snapshot_name", "log_level", "clang_args"])
    (hr : Remarks r) (hdefault : IsRemark (fieldLine key default default).toList)
    (hvalue : value ≠ default → Value j value.toList) (hw : Document ms w) :
    Document ((if value = default then [] else [(key, j)]) ++ ms)
      (r ++ ((fieldLine key value default).toList ++ '\n' :: w)) := by
  split
  · rename_i h
    have hline := Document.remark (.line hdefault .nil) hw
    rw [List.append_assoc] at hline
    rw [h]
    exact .remark hr hline
  · rename_i h
    obtain ⟨hname, htext⟩ := isName_key key hkey
    have hentry := Document.entry hr hname htext (hvalue h) hw
    rw [toList_fieldLine h, List.append_assoc]
    exact hentry

theorem document_args (u : UserConfig) :
    Document (if u.clangArgsOrDefault = [] then [] else [("clang_args", .ofTexts u.clangArgsOrDefault)])
      (argsRemarks ++ (u.argsLines ++ ['\n'])) := by
  unfold argsLines
  split
  · exact .nil (remarks_args.append (.line (by decide) .nil))
  · rename_i h
    obtain ⟨x, xs, hargs⟩ := List.exists_cons_of_ne_nil h
    obtain ⟨ws, hlist, hws⟩ := flowList_eq "clang_args" x xs
    obtain ⟨hname, htext⟩ := isName_key "clang_args" (by simp)
    rw [hargs, hlist, String.toList_ofList]
    have hentry := Document.entry remarks_args hname htext (Value.items hws) (.nil .nil)
    simpa using hentry

theorem levelName_eq_iff {l l' : LogLevel} : l.name = l'.name ↔ l = l' := by
  refine ⟨fun h => ?_, congrArg _⟩
  have hname := LogLevel.ofName?_name l
  rw [h, LogLevel.ofName?_name] at hname
  exact (Option.some.inj hname).symm

theorem furtherMembers_written (u : UserConfig) : u.written.furtherMembers =
    (if u.logLevelOrDefault.name = ({} : LoggingConfig).level.name then []
      else [("log_level", .str u.logLevelOrDefault.name)]) ++
      if u.clangArgsOrDefault = [] then []
      else [("clang_args", .ofTexts u.clangArgsOrDefault)] := by
  simp only [furtherMembers, written, levelName_eq_iff]
  congr 1 <;> split <;> rfl

/-- What stands after the name is a document of the level and the arguments. -/
theorem document_furtherText (u : UserConfig) :
    Document u.written.furtherMembers u.furtherText := by
  rw [furtherMembers_written]
  exact document_fieldLine (by simp) remarks_level (by decide)
    (fun _ => .name (isName_level _).1 (isName_level _).2) (document_args u)

theorem members_written (u : UserConfig) : u.written.members =
    (if u.snapshotNameOrDefault = ({} : GraphConfig).snapshotName then []
      else [("snapshot_name", .str u.snapshotNameOrDefault)]) ++ u.written.furtherMembers := by
  rw [members]
  congr 1
  rw [written]
  split <;> rfl

/-- **The file is a document of the fields that are written, if the name stands for itself.** -/
theorem document_toText {u : UserConfig} (hname : PlainLine u.snapshotNameOrDefault) :
    Document u.written.members u.toText.toList := by
  rw [members_written, toList_toText]
  exact document_fieldLine (by simp) remarks_name (by decide)
    (fun _ => hname.value) (document_furtherText u)

/-! ## Reading -/

theorem legible_argsLines (u : UserConfig) : Legible u.argsLines := by
  unfold argsLines
  split
  · decide
  · rename_i h
    obtain ⟨x, xs, hargs⟩ := List.exists_cons_of_ne_nil h
    obtain ⟨ws, hlist, hws⟩ := flowList_eq "clang_args" x xs
    have hkey : Legible ("clang_args".toList ++ [':', ' ', '[']) := by decide
    have htext := hkey.append (hws.legible.append (v := [']']) (by decide))
    rw [hargs, hlist, String.toList_ofList]
    simpa using htext

theorem legible_levelLine (u : UserConfig) : Legible u.levelLine := by
  have hlevels (l : LogLevel) :
      Legible (fieldLine "log_level" l.name ({} : LoggingConfig).level.name).toList := by
    cases l <;> decide
  exact hlevels u.logLevelOrDefault

theorem legible_furtherText (u : UserConfig) : Legible u.furtherText := by
  have hlevel : Legible levelRemarks := by decide
  have hargs : Legible argsRemarks := by decide
  exact hlevel.append ((legible_levelLine u).append (.cons (.inl rfl)
    (hargs.append ((legible_argsLines u).append (by decide)))))

/-- Only the characters of the name may not be legible. -/
theorem mem_toText {u : UserConfig} {y : Char} (h : y ∈ u.toText.toList) :
    y ∈ u.snapshotNameOrDefault.toList ∨ y = '\n' ∨ Printable y := by
  have hremarks : Legible nameRemarks := by decide
  have hline : y ∈ u.nameLine → y ∈ u.snapshotNameOrDefault.toList ∨ y = '\n' ∨ Printable y := by
    unfold nameLine
    by_cases hdefault : u.snapshotNameOrDefault = ({} : GraphConfig).snapshotName
    · have hlegible : Legible (fieldLine "snapshot_name" ({} : GraphConfig).snapshotName
          ({} : GraphConfig).snapshotName).toList := by decide
      rw [hdefault]
      exact fun hy => .inr (hlegible y hy)
    · have hkey : Legible ("snapshot_name".toList ++ [':', ' ']) := by decide
      rw [toList_fieldLine hdefault]
      intro hy
      have hy' : y ∈ ("snapshot_name".toList ++ [':', ' ']) ++ u.snapshotNameOrDefault.toList := by
        simpa using hy
      rcases List.mem_append.1 hy' with hy | hy
      · exact .inr (hkey y hy)
      · exact .inl hy
  rw [toList_toText] at h
  rcases List.mem_append.1 h with h | h
  · exact .inr (hremarks y h)
  rcases List.mem_append.1 h with h | h
  · exact hline h
  · exact .inr ((legible_furtherText u).cons (.inl rfl) y h)

theorem head?_toText (u : UserConfig) : u.toText.toList.head? = some '#' := by
  rw [toList_toText]
  rfl

theorem noReturn_toText {u : UserConfig}
    (hline : ∀ y ∈ u.snapshotNameOrDefault.toList, isBreak y = false) :
    ∀ y ∈ u.toText.toList, y ≠ '\r' ∧ y ≠ '\u0085' := by
  have hbreaks : ∀ z ∈ ['\r', '\u0085'], isBreak z = true ∧ z ≠ '\n' ∧ ¬ Printable z := by decide
  have hne {y z : Char} (hy : y ∈ u.toText.toList) (hz : z ∈ ['\r', '\u0085']) : y ≠ z := by
    rintro rfl
    obtain ⟨hbreak, hfeed, hprintable⟩ := hbreaks y hz
    rcases mem_toText hy with h | h | h
    · rw [hline y h] at hbreak
      cases hbreak
    · exact hfeed h
    · exact hprintable h
  exact fun y hy => ⟨hne hy (by simp), hne hy (by simp)⟩

theorem normalized_toText {u : UserConfig}
    (hline : ∀ y ∈ u.snapshotNameOrDefault.toList, isBreak y = false) :
    normalized u.toText = u.toText.toList :=
  normalized_eq_self (noReturn_toText hline) (by rw [head?_toText]; decide)

/-- A name that stands for itself comes back. -/
theorem ofText_toText (h : Host) {u : UserConfig} (hname : PlainLine u.snapshotNameOrDefault) :
    ofText h u.toText = .ok u.written := by
  obtain ⟨depth, hdepth⟩ : ∃ depth, h.configDepth = depth + 2 := ⟨h.configDepth - 2, by
    have hample := h.ample.2.2
    omega⟩
  have hnormal := normalized_toText hname.line
  have hallowed : (normalized u.toText).all isAllowed = true := by
    rw [hnormal, List.all_eq_true]
    exact fun y hy => (mem_toText hy).elim (hname.allowed y) isAllowed_of_legible
  obtain ⟨n, hcompose, hvalue, hodd⟩ :=
    compose_document (hnormal ▸ document_toText hname) hallowed depth
  have hwritten : ofNode n = .ok u.written := by
    have hmembers := ofMembers_members u.written
    by_cases hnil : u.written.members = []
    · rw [hnil] at hmembers
      rw [ofNode, hvalue, if_pos hnil, ← show {} = u.written from Except.ok.inj hmembers]
      rfl
    · rw [ofNode, hvalue, if_neg hnil, ofMembers_of_nodup (nodup_members _), ok_bind]
      dsimp only
      rw [hodd, hmembers]
      rfl
  rw [ofText, hdepth, hcompose, ok_bind, hwritten]

end UserConfig

end DeclGraph
