/-
  What extraction takes from the declarations of a dump.

  * `Reading`: the name of a declaration, its symbol, and the members that its node lists;
  * `extract_eq_assemble`: a unit is put together from readings alone;
  * `assemble_congr`: when other readings give the same unit.
-/
import DeclGraph.Proofs.Ast.Extract

namespace DeclGraph.Ast

/-- What is taken from a declaration. -/
structure Reading where
  name : String
  symbol : Option Symbol
  members : Except Fault MemberSet

variable {v : Vocabulary} {unit : String}

/-- What is taken from a declaration, by the vocabulary of its dialect. -/
def Declaration.reading (v : Vocabulary) (dec : Declaration) : Reading where
  name := dec.name
  symbol := dec.symbol
  members := membersOf v dec.node

/-- What is taken from a node, if it declares something. -/
def readingOf (v : Vocabulary) (unit : String) (node : Node) : Except Fault (Option Reading) :=
  (declaration v unit node).map (Option.map (Declaration.reading v))

/-- What is taken from nodes, in their order. -/
def readings (v : Vocabulary) (unit : String) (nodes : List Node) : Except Fault (List Reading) :=
  (nodes.mapM (readingOf v unit)).map (List.filterMap id)

/-- The members of the first reading of a name. -/
def membersNamed (rs : List Reading) (name : String) : Option (Except Fault MemberSet) :=
  (rs.find? (·.name = name)).map Reading.members

/-- The types among the symbols of readings. -/
def typesOf (rs : List Reading) : List Symbol :=
  (SymbolTable.ofSymbols (rs.filterMap Reading.symbol)).inKinds SymbolKind.types

/-- The types among the readings that have a name, with their members. -/
def membersByType (rs : List Reading) : List (String × Except Fault MemberSet) :=
  (typesOf rs).filterMap fun s => do
    let name ← s.name.text?
    let members ← membersNamed rs name
    return (name, members)

/-- The unit that readings make up. -/
def assemble (d : Dialect) (rs : List Reading) : Except Fault UnitData := do
  let sets ← Table.mapValuesM id (membersByType rs)
  return {
    dialect := d, symbols := .ofSymbols (rs.filterMap Reading.symbol)
    members := Table.ofList sets }

theorem readings_eq (nodes : List Node) : readings v unit nodes =
    ((nodes.mapM (declaration v unit)).map (List.filterMap id)).map
      (List.map (Declaration.reading v)) := by
  have hmap : nodes.mapM (readingOf v unit) =
      (nodes.mapM (declaration v unit)).map (List.map (Option.map (Declaration.reading v))) :=
    mapM_eq_map fun _ _ => rfl
  rw [readings, hmap]
  cases nodes.mapM (declaration v unit) with
  | error fault => rfl
  | ok os => simp [List.filterMap_map, List.map_filterMap]

theorem membersNamed_map (declared : List Declaration) (name : String) :
    membersNamed (declared.map (Declaration.reading v)) name =
      (declared.find? (·.name = name)).map fun dec => membersOf v dec.node := by
  rw [membersNamed, List.find?_map, Option.map_map]
  rfl

theorem membersNamed_append (rs rs' : List Reading) (name : String) :
    membersNamed (rs ++ rs') name = (membersNamed rs name).or (membersNamed rs' name) := by
  rw [membersNamed, List.find?_append, Option.map_or]
  rfl

/-- **A unit is put together from the readings of its dump.** -/
theorem extract_eq_assemble (d : Dialect) (unit : String) (dump : Json) :
    extract d unit dump =
      readings d.vocabulary unit (visited d.vocabulary dump) >>= assemble d := by
  have hdeclared : declarations d.vocabulary unit dump =
      ((visited d.vocabulary dump).mapM (declaration d.vocabulary unit)).map
        (List.filterMap id) := by
    rw [declarations]
    cases (visited d.vocabulary dump).mapM (declaration d.vocabulary unit) <;> rfl
  rw [extract, hdeclared, readings_eq]
  cases (visited d.vocabulary dump).mapM (declaration d.vocabulary unit) with
  | error fault => rfl
  | ok os =>
    simp only [map_ok, ok_bind]
    generalize os.filterMap id = declared
    have hsymbols : (declared.map (Declaration.reading d.vocabulary)).filterMap Reading.symbol =
        declared.filterMap Declaration.symbol := List.filterMap_map
    have howners : (memberOwners declared (.ofSymbols (declared.filterMap Declaration.symbol))).map
          (fun owner => (owner.1, membersOf d.vocabulary owner.2)) =
        membersByType (declared.map (Declaration.reading d.vocabulary)) := by
      rw [memberOwners, List.map_filterMap, membersByType, typesOf, hsymbols]
      refine List.filterMap_congr fun s _ => ?_
      cases s.name.text? with
      | none => rfl
      | some name =>
        simp only [Option.bind_eq_bind, Option.bind_some, membersNamed_map]
        cases declared.find? (·.name = name) <;> rfl
    have hsets : Table.mapValuesM (membersOf d.vocabulary) (memberOwners declared
          (.ofSymbols (declared.filterMap Declaration.symbol))) =
        Table.mapValuesM id (membersByType (declared.map (Declaration.reading d.vocabulary))) := by
      rw [← howners, Table.mapValuesM, Table.mapValuesM, List.mapM_map]
      rfl
    rw [hsets, assemble, hsymbols]

/-- Readings with the same symbols and the same members of types make up the same unit. -/
theorem assemble_congr (d : Dialect) {rs rs' : List Reading}
    (hsymbols : rs'.filterMap Reading.symbol = rs.filterMap Reading.symbol)
    (hmembers : ∀ s ∈ typesOf rs, ∀ name, s.name = .str name →
      membersNamed rs' name = membersNamed rs name) :
    assemble d rs' = assemble d rs := by
  have htypes : typesOf rs' = typesOf rs := by
    rw [typesOf, hsymbols, typesOf]
  have hmembersByType : membersByType rs' = membersByType rs := by
    rw [membersByType, membersByType, htypes]
    refine List.filterMap_congr fun s hs => ?_
    cases hname : s.name.text? with
    | none => rfl
    | some name =>
      simp only [Option.bind_eq_bind, Option.bind_some]
      rw [hmembers s hs name (Json.text?_eq_some.1 hname)]
  rw [assemble, assemble, hmembersByType, hsymbols]

end DeclGraph.Ast
