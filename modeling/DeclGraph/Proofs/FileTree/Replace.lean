/-
  Writing a file through a new file beside it.

  * `Grown`: nothing but directories was added;
  * `MadeDirs`: what making the directories of a way does;
  * `replaceFile_cases`: the ways in which writing a file can go, none of which leaves the new
    file behind;
  * `exists_replaceFile_iff`: where a file can be written;
  * `Tidy`: where nothing is left if it cannot.
-/
import DeclGraph.Proofs.Except
import DeclGraph.Proofs.FileTree

namespace DeclGraph

/-! ## Ways -/

namespace Path

theorem collapse_concat (way : List String) (n : String) :
    collapse (way ++ [n]) = step (collapse way) n := by
  rw [collapse, List.foldl_append]
  rfl

/-- Without double dots a way leads straight on. -/
theorem foldl_step_of_notMem {way : List String} (h : ".." ∉ way) (here : List String) :
    way.foldl step here = here ++ way := by
  induction way generalizing here with
  | nil => rw [List.foldl_nil, List.append_nil]
  | cons n way ih =>
    rw [List.mem_cons, not_or] at h
    rw [List.foldl_cons, ih h.2, step, if_neg (Ne.symm h.1), List.append_assoc]
    rfl

end Path

namespace FileTree

variable {t t' : FileTree} {here p q way : List String}

theorem follow?_eq_some_iff : t.follow? here way = some p ↔ p = way.foldl Path.step here ∧
    ∀ above below, way = above ++ below → below ≠ [] → DirAt (above.foldl Path.step here) t := by
  induction way generalizing here with
  | nil =>
    rw [follow?, Option.some.injEq, List.foldl_nil, eq_comm]
    refine (and_iff_left fun above below h hne => ?_).symm
    exact absurd (List.append_eq_nil_iff.1 h.symm).2 hne
  | cons n way ih =>
    have hsteps : (∀ above below, n :: way = above ++ below → below ≠ [] →
        DirAt (above.foldl Path.step here) t) ↔ DirAt here t ∧ ∀ above below,
          way = above ++ below → below ≠ [] → DirAt (above.foldl Path.step (Path.step here n)) t := by
      constructor
      · intro h
        exact ⟨h [] (n :: way) rfl (by simp), fun above below hway hne =>
          h (n :: above) below (by rw [hway]; rfl) hne⟩
      · rintro ⟨hhere, h⟩ above below hway hne
        cases above with
        | nil => exact hhere
        | cons m above =>
          rw [List.cons_append, List.cons.injEq] at hway
          obtain ⟨rfl, hway⟩ := hway
          exact h above below hway hne
    rw [hsteps, List.foldl_cons, follow?]
    split
    · rename_i es hes
      rw [ih]
      exact and_congr_right fun _ => (and_iff_right ⟨es, hes⟩).symm
    · rename_i hnot
      exact iff_of_false nofun fun h => hnot _ h.2.1.choose_spec

/-- Nothing is refused on a way with short names. -/
theorem refuses_eq_false (h : ∀ n ∈ way, Path.isLongName n = false) :
    t.refuses here way = false := by
  induction way generalizing here with
  | nil => rfl
  | cons n way ih =>
    rw [List.forall_mem_cons] at h
    rw [refuses]
    split
    · rw [h.1, ih h.2]
      rfl
    · rfl

/-! ## Trees that have grown -/

/-- The files of a tree are the same and stand at the same places; directories may have been
    added. -/
structure Grown (before after : FileTree) : Prop where
  files : ∀ place c, at? place after = some (file c) ↔ at? place before = some (file c)
  dirs : ∀ place, DirAt place before → DirAt place after

theorem Grown.refl (t : FileTree) : Grown t t := ⟨fun _ _ => Iff.rfl, fun _ => id⟩

theorem Grown.trans {t₁ t₂ t₃ : FileTree} (h : Grown t₁ t₂) (h' : Grown t₂ t₃) : Grown t₁ t₃ :=
  ⟨fun place c => (h'.files place c).trans (h.files place c),
    fun place hdir => h'.dirs place (h.dirs place hdir)⟩

theorem grown_putAt?_empty (hnone : at? p t = none) (h : putAt? empty p t = some t') :
    Grown t t' := by
  constructor
  · intro q c
    by_cases hbelow : p <+: q
    · obtain ⟨rest, rfl⟩ := hbelow
      rw [at?_append, at?_append, at?_putAt? h, hnone]
      cases rest <;> simp [at?, empty]
    · exact file_putAt?_iff h hbelow
  · intro q hdir
    refine hdir.putAt? h ?_
    rintro ⟨rest, hrest⟩
    obtain ⟨es, hes⟩ := DirAt.above (hrest.symm ▸ hdir)
    rw [hnone] at hes
    cases hes

/-! ## Making the directories of a way -/

/-- A way does not go on by a name: it is too long, or a file stands there. -/
def Ends (t : FileTree) (here : List String) (n : String) : Prop :=
  Path.isLongName n = true ∨ ∃ c, at? (Path.step here n) t = some (file c)

/-- What one step of a way does: it ends there, or it goes on from a directory, which it may
    have made. -/
theorem makeDirs_cons (n : String) (way : List String) (hdir : DirAt here t) :
    (t.Ends here n ∧ makeDirs here (n :: way) t = .error t) ∨
    ∃ made, Path.isLongName n = false ∧
      makeDirs here (n :: way) t = makeDirs (Path.step here n) way made ∧ Grown t made ∧
      DirAt (Path.step here n) made ∧
      (∀ q, DirAt q made → DirAt q t ∨ q = Path.step here n) ∧
      (made = t ∨ at? (Path.step here n) t = none ∧
        at? (Path.step here n) made = some empty) := by
  cases hlong : Path.isLongName n with
  | true => exact Or.inl ⟨Or.inl hlong, by simp only [makeDirs, hlong, if_true]⟩
  | false =>
  cases hat : at? (Path.step here n) t with
  | some u =>
    cases u with
    | file c => exact Or.inl ⟨Or.inr ⟨c, hat⟩, by simp only [makeDirs, hlong, hat]; rfl⟩
    | dir es =>
      exact Or.inr ⟨t, rfl, by simp only [makeDirs, hlong, hat]; rfl, .refl t, ⟨es, hat⟩,
        fun q => Or.inl, Or.inl rfl⟩
  | none =>
    -- what two dots lead to is there
    have hstep : Path.step here n = here ++ [n] := by
      rw [Path.step]
      split
      · rename_i hup
        obtain ⟨es, hes⟩ := hdir.dropLast
        rw [Path.step, if_pos hup, hes] at hat
        cases hat
      · rfl
    obtain ⟨made, hmade⟩ := exists_putAt? empty n hdir
    rw [hstep] at hat ⊢
    refine Or.inr ⟨made, rfl, ?_, grown_putAt?_empty hat hmade, ⟨[], at?_putAt? hmade⟩, ?_,
      Or.inr ⟨rfl, at?_putAt? hmade⟩⟩
    · simp only [makeDirs, hlong, hstep, hat, hmade]
      rfl
    · intro q hq
      by_cases hbelow : here ++ [n] <+: q
      · obtain ⟨rest, rfl⟩ := hbelow
        cases rest with
        | nil => exact Or.inr (List.append_nil _)
        | cons m rest =>
          obtain ⟨es, hes⟩ := hq
          rw [at?_append, at?_putAt? hmade] at hes
          cases hes
      · exact Or.inl (dirAt_of_putAt? hdir hmade hbelow hq)

/-- What making the directories of a way does. -/
structure MadeDirs (here way : List String) (t made : FileTree) : Prop where
  short : ∀ n ∈ way, Path.isLongName n = false
  grown : Grown t made
  dirs : ∀ above, above <+: way → DirAt (above.foldl Path.step here) made
  new : ∀ q, DirAt q made → DirAt q t ∨ ∃ above, above <+: way ∧ q = above.foldl Path.step here

theorem madeDirs_of_makeDirs_ok {made : FileTree} (hdir : DirAt here t)
    (h : makeDirs here way t = .ok (made, p)) :
    p = way.foldl Path.step here ∧ MadeDirs here way t made := by
  induction way generalizing here t with
  | nil =>
    obtain ⟨rfl, rfl⟩ := Prod.mk.inj (Except.ok.inj h)
    refine ⟨rfl, nofun, .refl t, fun above habove => ?_, fun q => Or.inl⟩
    rw [List.prefix_nil.1 habove]
    exact hdir
  | cons n way ih =>
    rcases makeDirs_cons n way hdir with ⟨-, hstop⟩ |
      ⟨next, hshort, hgo, hgrown, hnext, hnew, -⟩
    · rw [hstop] at h
      cases h
    · rw [hgo] at h
      obtain ⟨hp, hrest⟩ := ih hnext h
      refine ⟨hp, List.forall_mem_cons.2 ⟨hshort, hrest.short⟩, hgrown.trans hrest.grown,
        fun above habove => ?_, fun q hq => ?_⟩
      · rcases List.prefix_cons_iff.1 habove with rfl | ⟨rest, rfl, hrest'⟩
        · exact hrest.grown.dirs _ (hgrown.dirs _ hdir)
        · exact hrest.dirs rest hrest'
      · rcases hrest.new q hq with hq | ⟨above, habove, rfl⟩
        · rcases hnew q hq with hq | rfl
          · exact Or.inl hq
          · exact Or.inr ⟨[n], by simp, rfl⟩
        · exact Or.inr ⟨n :: above, (List.prefix_cons_inj n).2 habove, rfl⟩

/-- The directories of a way cannot be made if a file stands on it, or if one of its names is too
    long. -/
theorem grown_of_makeDirs_error {left : FileTree} (hdir : DirAt here t)
    (h : makeDirs here way t = .error left) : Grown t left ∧
      ((∃ n ∈ way, Path.isLongName n = true) ∨
        ∃ above c, above <+: way ∧ at? (above.foldl Path.step here) t = some (file c)) := by
  induction way generalizing here t with
  | nil => cases h
  | cons n way ih =>
    rcases makeDirs_cons n way hdir with ⟨hend, hstop⟩ |
      ⟨next, -, hgo, hgrown, hnext, -, -⟩
    · rw [hstop] at h
      obtain rfl := Except.error.inj h
      rcases hend with hlong | ⟨c, hfile⟩
      · exact ⟨.refl t, Or.inl ⟨n, List.mem_cons_self, hlong⟩⟩
      · exact ⟨.refl t, Or.inr ⟨[n], c, by simp, hfile⟩⟩
    · rw [hgo] at h
      obtain ⟨hgrown', ⟨m, hm, hlong⟩ | ⟨above, c, habove, hfile⟩⟩ := ih hnext h
      · exact ⟨hgrown.trans hgrown', Or.inl ⟨m, List.mem_cons_of_mem n hm, hlong⟩⟩
      · exact ⟨hgrown.trans hgrown', Or.inr ⟨n :: above, c, (List.prefix_cons_inj n).2 habove,
          (hgrown.files _ c).1 hfile⟩⟩

/-- Nothing is made if all directories of a way are there. -/
theorem makeDirs_of_dirs (h : ∀ above, above <+: way → DirAt (above.foldl Path.step here) t) :
    makeDirs here way t = .ok (t, way.foldl Path.step here) ∨ makeDirs here way t = .error t := by
  induction way generalizing here with
  | nil => exact Or.inl rfl
  | cons n way ih =>
    rw [makeDirs]
    split
    · exact Or.inr rfl
    · obtain ⟨es, hes⟩ := h [n] (by simp)
      change at? (Path.step here n) t = some (dir es) at hes
      simp only [hes, List.foldl_cons]
      exact ih fun above habove => h (n :: above) ((List.prefix_cons_inj n).2 habove)

/-- Without double dots and long names nothing was made before a file ends the way, … -/
theorem makeDirs_error_eq {left : FileTree} (hdir : DirAt here t) (hdots : ".." ∉ way)
    (hshort : ∀ n ∈ way, Path.isLongName n = false) (h : makeDirs here way t = .error left) :
    left = t := by
  induction way generalizing here t with
  | nil => cases h
  | cons n way ih =>
    rw [List.mem_cons, not_or] at hdots
    rw [List.forall_mem_cons] at hshort
    rcases makeDirs_cons n way hdir with ⟨-, hstop⟩ |
      ⟨next, -, hgo, -, hnext, -, rfl | ⟨-, hempty⟩⟩
    · rw [hstop] at h
      exact (Except.error.inj h).symm
    · rw [hgo] at h
      exact ih hnext hdots.2 hshort.2 h
    · rw [hgo] at h
      obtain ⟨-, ⟨m, hm, hlong⟩ | ⟨above, c, habove, hfile⟩⟩ := grown_of_makeDirs_error hnext h
      · rw [hshort.2 m hm] at hlong
        cases hlong
      · have hdots' : ".." ∉ above := fun hmem => hdots.2 (habove.subset hmem)
        rw [Path.foldl_step_of_notMem hdots', at?_append, hempty] at hfile
        cases above <;> cases hfile

/-- … and what was made ends with a directory that is empty. -/
theorem makeDirs_ok_eq {made : FileTree} (hdir : DirAt here t) (hdots : ".." ∉ way)
    (h : makeDirs here way t = .ok (made, p)) : made = t ∨ at? p made = some empty := by
  induction way generalizing here t with
  | nil =>
    obtain ⟨rfl, -⟩ := Prod.mk.inj (Except.ok.inj h)
    exact Or.inl rfl
  | cons n way ih =>
    rw [List.mem_cons, not_or] at hdots
    rcases makeDirs_cons n way hdir with ⟨-, hstop⟩ |
      ⟨next, -, hgo, -, hnext, -, hsame⟩
    · rw [hstop] at h
      cases h
    · rw [hgo] at h
      rcases ih hnext hdots.2 h with rfl | hempty
      · rcases hsame with rfl | ⟨-, hempty⟩
        · exact Or.inl rfl
        · -- the way goes on from an empty directory, and so it is at its end
          obtain ⟨rfl, hmade⟩ := madeDirs_of_makeDirs_ok hnext h
          have hend := hmade.dirs way List.prefix_rfl
          rw [Path.foldl_step_of_notMem hdots.2] at hend ⊢
          obtain ⟨es, hes⟩ := hend
          rw [at?_append, hempty] at hes ⊢
          cases way with
          | nil => exact Or.inr rfl
          | cons m way => cases hes
      · exact Or.inr hempty

/-- So if a directory stands at the end of a way, all directories above it were there. -/
theorem made_eq_of_dirAt {made : FileTree} (hroot : DirAt [] t) (hdots : ".." ∉ way)
    (h : makeDirs [] way.dropLast t = .ok (made, p)) (hdir : DirAt (Path.collapse way) made) :
    made = t := by
  cases way using List.reverseRecOn with
  | nil => exact (Prod.mk.inj (Except.ok.inj h)).1.symm
  | append_singleton way n =>
    rw [List.dropLast_concat] at h
    rw [List.mem_append, not_or] at hdots
    rcases makeDirs_ok_eq hroot hdots.1 h with rfl | hempty
    · rfl
    · obtain ⟨rfl, -⟩ := madeDirs_of_makeDirs_ok hroot h
      obtain ⟨es, hes⟩ := hdir
      have hn : n ≠ ".." := fun hn => hdots.2 (by simp [hn])
      rw [Path.collapse_concat, Path.step, if_neg hn, at?_append, Path.collapse, hempty] at hes
      cases hes

/-! ## The new file -/

theorem freshName_notMem (head : String) (es : List (String × FileTree)) :
    freshName head es ∉ es.map Prod.fst := by
  have hlength : ∀ n ∈ es.map Prod.fst,
      n.length ≤ (es.map fun e => e.1.length).foldr (· + ·) 0 := by
    induction es with
    | nil => simp
    | cons e es ih =>
      simp only [List.map_cons, List.foldr_cons, List.forall_mem_cons]
      exact ⟨Nat.le_add_right _ _, fun n hn => Nat.le_trans (ih n hn) (Nat.le_add_left _ _)⟩
  intro hmem
  have hle := hlength _ hmem
  rw [freshName, String.length_append, String.length_ofList, List.length_replicate] at hle
  omega

/-- The new file is not there before. -/
theorem at?_freshName {head : String} {es : List (String × FileTree)}
    (h : at? p t = some (dir es)) : at? (p ++ [freshName head es]) t = none := by
  have hlookup : es.lookup (freshName head es) = none := by
    rw [List.lookup_eq_none_iff]
    intro e he
    rw [bne_iff_ne]
    exact fun heq => freshName_notMem head es (heq ▸ List.mem_map_of_mem he)
  rw [at?_append, h, Option.bind_some, at?, hlookup]
  rfl

/-- A new file takes its place as if it had been written there. -/
theorem rename?_putAt? {n : String} {content : Octets} {drafted : FileTree} (hdir : DirAt here t)
    (hnone : at? (here ++ [n]) t = none)
    (h : putAt? (file content) (here ++ [n]) t = some drafted) (hq : ¬ DirAt q t) :
    rename? (here ++ [n]) q drafted = putAt? (file content) q t := by
  have hq' : ¬ DirAt q drafted := by
    by_cases hbelow : here ++ [n] <+: q
    · obtain ⟨rest, rfl⟩ := hbelow
      rintro ⟨es, hes⟩
      rw [at?_append, at?_putAt? h] at hes
      cases rest <;> cases hes
    · exact fun hdir' => hq (dirAt_of_putAt? hdir h hbelow hdir')
  rw [rename?, at?_putAt? h, remove_putAt? hdir hnone h]
  cases hat : at? q drafted with
  | none => rfl
  | some u =>
    cases u with
    | file c => rfl
    | dir es => exact absurd ⟨es, hat⟩ hq'

theorem rename?_of_dirAt {source : List String} (h : DirAt q t) : rename? source q t = none := by
  obtain ⟨es, hes⟩ := h
  rw [rename?, hes]

/-! ## Writing a file as a whole -/

/-- The system takes all names on a way, and that of the new file beside its end. -/
def ShortNames (way : List String) : Prop :=
  (∀ n ∈ way.dropLast, Path.isLongName n = false) ∧
    Path.isLongName (draftForm (way.getLastD "")) = false

/-- What becomes of the new file once the directories are made: it takes its place, or a directory
    is there and it is gone again. -/
theorem replaceFile_of_beginFile (content : Octets) {made : FileTree} (hdir : DirAt p made)
    (hp : p = Path.collapse way.dropLast) (h : beginFile way t = .ok (made, p)) :
    (DirAt (Path.collapse way) made ∧ replaceFile content way t = .error made) ∨
    (¬ DirAt (Path.collapse way) made ∧ ∃ written,
      putAt? (file content) (Path.collapse way) made = some written ∧
        replaceFile content way t = .ok written) := by
  obtain ⟨es, hes⟩ := hdir
  obtain ⟨drafted, hdrafted⟩ := exists_putAt? (file content)
    (draftName (way.getLastD "") es) ⟨es, hes⟩
  have hnone : at? (p ++ [draftName (way.getLastD "") es]) made = none := at?_freshName hes
  have hreplace : replaceFile content way t =
      (rename? (p ++ [draftName (way.getLastD "") es]) (Path.collapse way) drafted).elim
        (.error made) .ok := by
    have hentries : ((at? p made).map FileTree.entries).getD [] = es := by rw [hes]; rfl
    rw [replaceFile, h, ok_bind]
    simp only [hentries, hdrafted, remove_putAt? ⟨es, hes⟩ hnone hdrafted]
    cases rename? (p ++ [draftName (way.getLastD "") es]) (Path.collapse way) drafted <;> rfl
  by_cases htarget : DirAt (Path.collapse way) made
  · have htarget' : DirAt (Path.collapse way) drafted := by
      refine htarget.putAt? hdrafted ?_
      rintro ⟨rest, hrest⟩
      obtain ⟨es', hes'⟩ := DirAt.above (hrest.symm ▸ htarget)
      rw [hnone] at hes'
      cases hes'
    rw [rename?_of_dirAt htarget'] at hreplace
    exact Or.inl ⟨htarget, hreplace⟩
  · rw [rename?_putAt? ⟨es, hes⟩ hnone hdrafted htarget] at hreplace
    obtain ⟨written, hwritten⟩ : ∃ written,
        putAt? (file content) (Path.collapse way) made = some written := by
      cases way using List.reverseRecOn with
      | nil => exact absurd ⟨es, hp ▸ hes⟩ htarget
      | append_singleton way n =>
        rw [List.dropLast_concat] at hp
        rw [Path.collapse_concat, ← hp, Path.step] at htarget ⊢
        split at htarget
        · exact absurd (DirAt.dropLast ⟨es, hes⟩) htarget
        · rename_i hup
          rw [if_neg hup]
          exact exists_putAt? _ n ⟨es, hes⟩
    rw [hwritten] at hreplace
    exact Or.inr ⟨htarget, written, hwritten, hreplace⟩

/-- A file can be written at the end of a way: no file stands on the way, and at its end there is
    no directory, nor will be once those of the way are made. -/
def Writable (way : List String) (t : FileTree) : Prop :=
  way ≠ [] ∧
  (∀ above below, way = above ++ below → below ≠ [] → Path.collapse above ≠ Path.collapse way ∧
    ∀ c, at? (Path.collapse above) t ≠ some (file c)) ∧
  ∀ es, at? (Path.collapse way) t ≠ some (dir es)

/-- All directories above the end of a way are there. -/
def HasDirs (way : List String) (t : FileTree) : Prop :=
  ∀ above, above <+: way.dropLast → DirAt (Path.collapse above) t

/-- Writing a file makes no directory before it fails: the way leads straight on with short names,
    or all its directories are there. -/
def Tidy (way : List String) (t : FileTree) : Prop := ".." ∉ way ∧ ShortNames way ∨ HasDirs way t

/-- Nothing can be made if the root is a file. -/
theorem makeDirs_file (way : List String) (c : Octets) :
    makeDirs [] way (file c) = .ok (file c, []) ∨ makeDirs [] way (file c) = .error (file c) := by
  cases way with
  | nil => exact Or.inl rfl
  | cons n way =>
    refine Or.inr ?_
    by_cases hup : n = ".."
    · simp [makeDirs, Path.step, hup, at?]
    · simp [makeDirs, Path.step, hup, at?, putAt?]

/-- What is left once the directories above a file are made. -/
theorem grown_of_makeParents {made : FileTree} (h : makeParents way t = .ok made) :
    Grown t made ∧ (HasDirs way t → made = t) := by
  obtain ⟨⟨made', p⟩, hmake, rfl⟩ := map_eq_ok.1 h
  cases t with
  | file c =>
    rcases makeDirs_file way.dropLast c with hok | herror
    · rw [hmake] at hok
      obtain ⟨rfl, -⟩ := Prod.mk.inj (Except.ok.inj hok)
      exact ⟨.refl _, fun _ => rfl⟩
    · rw [hmake] at herror
      cases herror
  | dir es =>
    obtain ⟨-, hmade⟩ := madeDirs_of_makeDirs_ok ⟨es, rfl⟩ hmake
    refine ⟨hmade.grown, fun hdirs => ?_⟩
    rcases makeDirs_of_dirs hdirs with hok | herror
    · rw [hmake] at hok
      exact (Prod.mk.inj (Except.ok.inj hok)).1
    · rw [hmake] at herror
      cases herror

/-- What is left if the directories above a file cannot be made. -/
theorem grown_of_makeParents_error {left : FileTree} (h : makeParents way t = .error left) :
    Grown t left ∧ (Tidy way t → left = t) ∧ ¬ (ShortNames way ∧ Writable way t) := by
  have hmake := map_eq_error.1 h
  cases t with
  | file c =>
    have hno : ¬ Writable way (file c) := fun hw => (hw.2.1 [] way rfl hw.1).2 c rfl
    rcases makeDirs_file way.dropLast c with hok | herror
    · rw [hmake] at hok
      cases hok
    · obtain rfl := Except.error.inj (hmake.symm.trans herror)
      exact ⟨.refl _, fun _ => rfl, fun h => hno h.2⟩
  | dir es =>
    obtain ⟨hgrown, hend⟩ := grown_of_makeDirs_error ⟨es, rfl⟩ hmake
    refine ⟨hgrown, ?_, fun ⟨hshort, hw⟩ => ?_⟩
    · rintro (⟨hdots, hshort⟩ | hdirs)
      · exact makeDirs_error_eq ⟨es, rfl⟩ (fun hmem => hdots (List.dropLast_subset way hmem))
          hshort.1 hmake
      · rcases makeDirs_of_dirs hdirs with hok | herror
        · rw [hmake] at hok
          cases hok
        · exact Except.error.inj (hmake.symm.trans herror)
    · rcases hend with ⟨n, hn, hlong⟩ | ⟨above, c, ⟨rest, hrest⟩, hfile⟩
      · rw [hshort.1 n hn] at hlong
        cases hlong
      · have hway := List.dropLast_append_getLast hw.1
        rw [← hrest, List.append_assoc] at hway
        exact (hw.2.1 above _ hway.symm (by simp)).2 c hfile

/-- What is left if the new file cannot be begun. -/
theorem grown_of_beginFile_error {left : FileTree} (h : beginFile way t = .error left) :
    Grown t left ∧ (Tidy way t → left = t) ∧ ¬ (ShortNames way ∧ Writable way t) := by
  rcases bind_eq_error.1 h with hmake | ⟨⟨made, p⟩, hmake, hrest⟩
  · exact grown_of_makeParents_error (map_eq_error.2 hmake)
  · obtain ⟨hgrown, hsame⟩ := grown_of_makeParents (map_eq_ok.2 ⟨_, hmake, rfl⟩)
    dsimp only at hrest
    split at hrest
    · rename_i hlong
      obtain rfl : made = left := Except.error.inj hrest
      have hno : ¬ ShortNames way := fun hshort => by
        rw [hshort.2] at hlong
        cases hlong
      refine ⟨hgrown, ?_, fun h => hno h.1⟩
      rintro (⟨-, hshort⟩ | hdirs)
      · exact absurd hshort hno
      · exact hsame hdirs
    · cases hrest

/-- What there is once the new file can be begun. -/
theorem madeDirs_of_beginFile_ok {made : FileTree} (hroot : DirAt [] t)
    (h : beginFile way t = .ok (made, p)) :
    makeDirs [] way.dropLast t = .ok (made, p) ∧ p = Path.collapse way.dropLast ∧
      MadeDirs [] way.dropLast t made ∧ ShortNames way := by
  obtain ⟨⟨made', p'⟩, hmake, hrest⟩ := bind_eq_ok.1 h
  dsimp only at hrest
  split at hrest
  · cases hrest
  · rename_i hshort
    obtain ⟨rfl, rfl⟩ := Prod.mk.inj (Except.ok.inj hrest)
    obtain ⟨hp, hmade⟩ := madeDirs_of_makeDirs_ok hroot hmake
    exact ⟨hmake, hp, hmade, hmade.short, Bool.eq_false_iff.2 hshort⟩

/-- **Writing a file** either puts it into the tree in which all directories of the way are, or
    leaves a tree with the same files. -/
theorem replaceFile_cases (content : Octets) (way : List String) (hroot : DirAt [] t) :
    (∃ made written, MadeDirs [] way.dropLast t made ∧ ¬ DirAt (Path.collapse way) made ∧
      putAt? (file content) (Path.collapse way) made = some written ∧
      (ShortNames way ∧ Writable way t) ∧ replaceFile content way t = .ok written) ∨
    ∃ left, Grown t left ∧ (Tidy way t → left = t) ∧ ¬ (ShortNames way ∧ Writable way t) ∧
      replaceFile content way t = .error left := by
  cases hbegin : beginFile way t with
  | error left =>
    obtain ⟨hgrown, htidy, hno⟩ := grown_of_beginFile_error hbegin
    exact Or.inr ⟨left, hgrown, htidy, hno, by rw [replaceFile, hbegin]; rfl⟩
  | ok result =>
    obtain ⟨made, p⟩ := result
    obtain ⟨hmake, hp, hmade, hshort⟩ := madeDirs_of_beginFile_ok hroot hbegin
    have hdir : DirAt p made := hp ▸ hmade.dirs _ List.prefix_rfl
    rcases replaceFile_of_beginFile content hdir hp hbegin with
      ⟨htarget, hreplace⟩ | ⟨htarget, written, hwritten, hreplace⟩
    · refine Or.inr ⟨made, hmade.grown, ?_, fun ⟨_, hw⟩ => ?_, hreplace⟩
      · rintro (⟨hdots, -⟩ | hdirs)
        · exact made_eq_of_dirAt hroot hdots hmake htarget
        · exact (grown_of_makeParents (map_eq_ok.2 ⟨_, hmake, rfl⟩)).2 hdirs
      · rcases hmade.new _ htarget with ⟨es, hes⟩ | ⟨above, ⟨rest, hrest⟩, heq⟩
        · exact hw.2.2 es hes
        · have hway := List.dropLast_append_getLast hw.1
          rw [← hrest, List.append_assoc] at hway
          exact (hw.2.1 above _ hway.symm (by simp)).1 heq.symm
    · refine Or.inl ⟨made, written, hmade, htarget, hwritten, ⟨hshort, ?_, ?_, ?_⟩, hreplace⟩
      · rintro rfl
        exact htarget (hmade.dirs [] List.prefix_rfl)
      · rintro above below hway hne
        have habove : above <+: way.dropLast :=
          ⟨below.dropLast, by rw [hway, List.dropLast_append_of_ne_nil hne]⟩
        have hdir' := hmade.dirs above habove
        refine ⟨fun heq => htarget (heq ▸ hdir'), fun c hfile => ?_⟩
        exact hdir'.not_file ((hmade.grown.files _ c).2 hfile)
      · exact fun es hes => htarget (hmade.grown.dirs _ ⟨es, hes⟩)

/-- Nothing can be written if the root is a file. -/
theorem replaceFile_file (content : Octets) (way : List String) (c : Octets) :
    replaceFile content way (file c) = .error (file c) := by
  rw [replaceFile, beginFile]
  rcases makeDirs_file way.dropLast c with hmake | hmake
  · rw [hmake, ok_bind]
    cases Path.isLongName (draftForm (way.getLastD "")) <;> rfl
  · rw [hmake]
    rfl

variable {content : Octets}

/-- **A file can be written exactly at the ends of ways that are writable**, if their names are
    short. -/
theorem exists_replaceFile_iff :
    (∃ written, replaceFile content way t = .ok written) ↔ ShortNames way ∧ Writable way t := by
  cases t with
  | file c =>
    rw [replaceFile_file]
    refine iff_of_false (fun ⟨_, h⟩ => nomatch h) fun ⟨_, hw⟩ => ?_
    exact (hw.2.1 [] way rfl hw.1).2 c rfl
  | dir es =>
    rcases replaceFile_cases content way ⟨es, rfl⟩ with ⟨_, written, -, -, -, hw, h⟩ |
      ⟨left, -, -, hw, h⟩
    · exact iff_of_true ⟨written, h⟩ hw
    · rw [h]
      exact iff_of_false (fun ⟨_, h⟩ => nomatch h) hw

/-- What is left if a file cannot be written: the same files, and if the way is tidy the same
    tree. -/
theorem grown_of_replaceFile_error {left : FileTree} (h : replaceFile content way t = .error left) :
    Grown t left ∧ (Tidy way t → left = t) := by
  cases t with
  | file c =>
    rw [replaceFile_file] at h
    obtain rfl := Except.error.inj h
    exact ⟨.refl _, fun _ => rfl⟩
  | dir es =>
    rcases replaceFile_cases content way ⟨es, rfl⟩ with ⟨_, written, -, -, -, -, h'⟩ |
      ⟨left', hgrown, hsame, -, h'⟩
    · rw [h'] at h
      cases h
    · rw [h'] at h
      obtain rfl := Except.error.inj h
      exact ⟨hgrown, hsame⟩

/-- A file that was written is found at the end of the way, and all other files are left as they
    are. -/
theorem of_replaceFile_ok {written : FileTree} (h : replaceFile content way t = .ok written) :
    reach? way written = some (file content) ∧
      ∀ place c, place ≠ Path.collapse way →
        (at? place written = some (file c) ↔ at? place t = some (file c)) := by
  cases t with
  | file c => rw [replaceFile_file] at h; cases h
  | dir es =>
    rcases replaceFile_cases content way ⟨es, rfl⟩ with
      ⟨made, written', hmade, htarget, hput, hw, h'⟩ | ⟨left, -, -, -, h'⟩
    · rw [h'] at h
      obtain rfl := Except.ok.inj h
      constructor
      · have hfollow : written'.follow? [] way = some (Path.collapse way) := by
          refine follow?_eq_some_iff.2 ⟨rfl, fun above below hway hne => ?_⟩
          have hdir : DirAt (Path.collapse above) made :=
            hmade.dirs above ⟨below.dropLast, by rw [hway, List.dropLast_append_of_ne_nil hne]⟩
          refine hdir.putAt? hput fun ⟨rest, hrest⟩ => ?_
          exact htarget (DirAt.above (hrest.symm ▸ hdir))
        rw [reach?, hfollow, Option.bind_some, at?_putAt? hput]
      · intro place c hne
        rw [← hmade.grown.files]
        by_cases hbelow : Path.collapse way <+: place
        · -- below a file stands nothing, and there was no directory before
          obtain ⟨rest, rfl⟩ := hbelow
          have hrest : rest ≠ [] := fun hnil => hne (by rw [hnil, List.append_nil])
          rw [at?_append, at?_append, at?_putAt? hput, Option.bind_some, at?_file hrest]
          refine iff_of_false nofun fun hfile => ?_
          obtain ⟨u, hu, hfile⟩ := Option.bind_eq_some_iff.1 hfile
          cases u with
          | dir es => exact htarget ⟨es, hu⟩
          | file c' => rw [at?_file hrest] at hfile; cases hfile
        · exact file_putAt?_iff hput hbelow
    · rw [h'] at h
      cases h

end FileTree

end DeclGraph
