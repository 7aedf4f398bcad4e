/-
  DeclGraph — insertion-ordered tables.

  A table binds texts to values, each key once, and remembers in which order
  the keys first came.  Giving a key a new value keeps its place.

  * `Table.get?` and `Table.insert` read and bind a key;
  * `Table.ofList` binds a list of pairs from left to right, so that of several
    pairs with one key the last value stands at the first place;
  * `get?_insert` and `keys_insert` say what one binding changes.
-/

namespace DeclGraph

universe u v

/-- Values bound to distinct keys, in the order in which the keys first came. -/
structure Table (α : Type u) where
  /-- The bindings in order. -/
  entries : List (String × α)
  /-- No key is bound twice. -/
  nodup : (entries.map Prod.fst).Nodup

namespace Table

variable {α : Type u} {β : Type v}

/-! ## Looking up -/

/-- The table that binds nothing. -/
def empty : Table α := ⟨[], List.nodup_nil⟩

instance : Inhabited (Table α) := ⟨empty⟩

@[ext] theorem ext {s t : Table α} (h : s.entries = t.entries) : s = t := by
  cases s; cases t; simp_all

instance [DecidableEq α] : DecidableEq (Table α) := fun s t =>
  decidable_of_iff (s.entries = t.entries) ⟨ext, fun h => h ▸ rfl⟩

/-- The keys in order. -/
def keys (t : Table α) : List String := t.entries.map Prod.fst

/-- The values in the order of their keys. -/
def values (t : Table α) : List α := t.entries.map Prod.snd

/-- The number of bindings. -/
def size (t : Table α) : Nat := t.entries.length

/-- The value bound to a key. -/
def get? (t : Table α) (key : String) : Option α := t.entries.lookup key

/-- Whether a key is bound. -/
def contains (t : Table α) (key : String) : Bool := t.keys.contains key

/-! ## Binding -/

/-- Gives `key` the value `value` in a list of pairs: in place if the key
    occurs, at the end if not. -/
def put (key : String) (value : α) : List (String × α) → List (String × α)
  | [] => [(key, value)]
  | (k, v) :: rest => if k = key then (k, value) :: rest else (k, v) :: put key value rest

/-- A binding keeps the keys and their order, and adds a new one at the end. -/
theorem map_fst_put (key : String) (value : α) (es : List (String × α)) :
    (put key value es).map Prod.fst =
      if key ∈ es.map Prod.fst then es.map Prod.fst else es.map Prod.fst ++ [key] := by
  induction es with
  | nil => simp [put]
  | cons e rest ih =>
    obtain ⟨k, v⟩ := e
    by_cases h : k = key
    · simp [put, h]
    · have h' : ¬ key = k := fun e => h e.symm
      simp only [put, h, if_false, List.map_cons, ih, List.mem_cons, h', false_or]
      split <;> simp

/-- Binds `key` to `value`; a bound key keeps its place. -/
def insert (t : Table α) (key : String) (value : α) : Table α where
  entries := put key value t.entries
  nodup := by
    rw [map_fst_put]
    split
    · exact t.nodup
    · rename_i h
      exact List.nodup_append.2 ⟨t.nodup, by simp, by
        rintro a ha b hb rfl
        exact h (List.mem_singleton.1 hb ▸ ha)⟩

/-- The bindings of a list of pairs, made from left to right. -/
def ofList (pairs : List (String × α)) : Table α :=
  pairs.foldl (fun t e => t.insert e.1 e.2) empty

/-- Changes every value and keeps keys and order. -/
def map (f : String → α → β) (t : Table α) : Table β where
  entries := t.entries.map fun e => (e.1, f e.1 e.2)
  nodup := by simpa [Function.comp_def] using t.nodup

/-- Keeps the bindings that satisfy a test. -/
def filter (p : String → α → Bool) (t : Table α) : Table α where
  entries := t.entries.filter fun e => p e.1 e.2
  nodup := t.nodup.sublist (List.filter_sublist.map Prod.fst)

/-- Changes the values of pairs and keeps the keys, unless a change fails. -/
def mapValuesM {ε : Type v} (f : α → Except ε β) (pairs : List (String × α)) :
    Except ε (List (String × β)) :=
  pairs.mapM fun e => do return (e.1, ← f e.2)

@[simp] theorem keys_empty : (empty : Table α).keys = [] := rfl

@[simp] theorem entries_empty : (empty : Table α).entries = [] := rfl

/-- A binding adds its key at the end unless it is bound already. -/
theorem keys_insert (t : Table α) (key : String) (value : α) :
    (t.insert key value).keys = if key ∈ t.keys then t.keys else t.keys ++ [key] :=
  map_fst_put key value t.entries

theorem lookup_put (key k : String) (value : α) (es : List (String × α)) :
    (put key value es).lookup k = if k = key then some value else es.lookup k := by
  induction es with
  | nil =>
    by_cases h : k = key
    · simp [put, h]
    · simp [put, List.lookup_cons, h, beq_eq_false_iff_ne.2 h]
  | cons e rest ih =>
    obtain ⟨k', v⟩ := e
    by_cases h : k' = key
    · by_cases hk : k = key
      · simp [put, h, hk]
      · simp [put, List.lookup_cons, h, hk, beq_eq_false_iff_ne.2 hk]
    · by_cases hk : k = k'
      · have : ¬ k = key := hk ▸ h
        simp [put, h, hk]
      · simp [put, List.lookup_cons, h, beq_eq_false_iff_ne.2 hk, ih]

/-- After a binding its key has the new value and every other key its old one. -/
theorem get?_insert (t : Table α) (key k : String) (value : α) :
    (t.insert key value).get? k = if k = key then some value else t.get? k :=
  lookup_put key k value t.entries

end Table

end DeclGraph
