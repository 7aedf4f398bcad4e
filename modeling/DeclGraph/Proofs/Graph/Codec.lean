/-
  Reading back type maps, edges and indexes.
-/
import DeclGraph.Graph.Basic
import DeclGraph.Proofs.Symbol.Codec

namespace DeclGraph

theorem SymbolKind.ofJson_name (k : SymbolKind) : ofJson (.str k.name) = .ok k := by
  cases k <;> rfl

/-- An entry of the type map as it is read back. -/
def TypeMapEntry.retagged (e : TypeMapEntry) : TypeMapEntry :=
  { e with symbol := e.symbol.retagged }

theorem TypeMapEntry.ofJson_toJson (e : TypeMapEntry) : ofJson e.toJson = .ok e.retagged := by
  simp only [ofJson, toJson, Json.members, ok_bind, Json.required, Json.member?,
    List.lookup_cons, String.reduceBEq, SymbolKind.ofJson_name,
    Symbol.ofJson_toJson_retagged (some e.kind)]
  rfl

theorem Edge.ofJson_toJson (e : Edge) : ofJson e.toJson = .ok e := rfl

theorem IndexLocation.ofJson_toJson (l : IndexLocation) : ofJson l.toJson = .ok l := by
  simp only [ofJson, toJson, Json.members, ok_bind, Json.required, Json.member?,
    List.lookup_cons, String.reduceBEq, SymbolKind.ofJson_name]
  rfl

theorem tableOfJson_ofTable {α : Type} {item : Json → Except Fault α} {toJson : α → Json}
    (h : ∀ x, item (toJson x) = .ok x) (t : Table (List α)) :
    tableOfJson item (.ofTable (fun xs => .arr (xs.map toJson)) t) = .ok t := by
  have hitems (xs : List α) : (do (← (Json.arr (xs.map toJson)).listed).mapM item) = .ok xs :=
    mapM_map_self fun x _ => h x
  have hrows : Table.mapValuesM (fun value => do (← value.listed).mapM item)
      (t.entries.map fun e => (e.1, Json.arr (e.2.map toJson))) = .ok t.entries := by
    unfold Table.mapValuesM
    refine mapM_map_self fun e _ => ?_
    dsimp only
    rw [hitems e.2]
    rfl
  rw [tableOfJson, Json.ofTable, Json.membersOrNone_obj, ok_bind, hrows]
  exact congrArg Except.ok (Table.ofList_entries t)

/-- **The indexes are read back.** -/
theorem Indexes.ofMembers_toJson {ix : Indexes} {ms : List (String × Json)}
    (h : ix.toJson = .obj ms) : ofMembers ms = .ok ix := by
  cases h
  have hnames := tableOfJson_ofTable IndexLocation.ofJson_toJson ix.byName
  have hplain (t : Table (List Json)) : tableOfJson pure (.ofTable .arr t) = .ok t := by
    have hid : (fun xs : List Json => Json.arr (xs.map id)) = .arr := by simp
    rw [← hid]
    exact tableOfJson_ofTable (fun _ => rfl) t
  simp only [ofMembers, Json.memberOrNull, Json.member?, List.lookup_cons,
    String.reduceBEq, Option.getD_some, hnames, hplain, ok_bind]
  rfl

end DeclGraph
