/-!
# Maps that keep their order

Texts with a value each, in the order in which the texts were first set; setting a text again
replaces its value where it stands. Rows to insert, SET lists and tables by name are such maps.

Models `ValueMap`.

Results:
* `keys_set`: setting a key adds it at the end unless it is there.
* `get?_set`: a key has the value that it was last set to.
* `forall_entries_set`, `forall_entries_setAll`: the entries are those that were set.
* `keys_nodup`: no key occurs twice.
-/

namespace ParamSql

/-- Texts with a value each, no text twice (`ValueMap`). -/
structure OrderedMap (α : Type) where
  entries : List (String × α)
  nodup : (entries.map Prod.fst).Nodup

namespace OrderedMap

variable {α β ε : Type}

/-- The keys, in order (`ValueMap.columns`). -/
def keys (m : OrderedMap α) : List String := m.entries.map Prod.fst

/-- The values, in the order of the keys. -/
def values (m : OrderedMap α) : List α := m.entries.map Prod.snd

/-- The number of keys (`ValueMap.len`). -/
def size (m : OrderedMap α) : Nat := m.entries.length

/-- Whether there are no keys (`ValueMap.is_empty`). -/
def isEmpty (m : OrderedMap α) : Bool := m.entries.isEmpty

/-- Whether the key is there (`ValueMap.contains`). -/
def contains (m : OrderedMap α) (key : String) : Bool := m.entries.any (·.1 = key)

/-- The value of a key (`ValueMap.get`). -/
def get? (m : OrderedMap α) (key : String) : Option α :=
  (m.entries.find? (·.1 = key)).map Prod.snd

/-- The map without keys. -/
def empty : OrderedMap α := ⟨[], List.nodup_nil⟩

instance : EmptyCollection (OrderedMap α) := ⟨empty⟩

instance : Inhabited (OrderedMap α) := ⟨empty⟩

/-! ## Setting a key -/

/-- The entries after setting a key: replaced where it stands, or added at the end. -/
def setEntry (key : String) (value : α) : List (String × α) → List (String × α)
  | [] => [(key, value)]
  | entry :: rest =>
    if entry.1 = key then (key, value) :: rest else entry :: setEntry key value rest

theorem keys_setEntry (key : String) (value : α) (entries : List (String × α)) :
    (setEntry key value entries).map Prod.fst =
      if key ∈ entries.map Prod.fst then entries.map Prod.fst
      else entries.map Prod.fst ++ [key] := by
  induction entries with
  | nil => simp [setEntry]
  | cons entry rest ih =>
    by_cases h : entry.1 = key
    · simp [setEntry, h]
    · simp only [setEntry, h, if_false, List.map_cons, List.mem_cons, ih, Ne.symm h, false_or]
      split <;> simp

theorem nodup_setEntry (key : String) (value : α) {entries : List (String × α)}
    (h : (entries.map Prod.fst).Nodup) : ((setEntry key value entries).map Prod.fst).Nodup := by
  rw [keys_setEntry]
  split
  · exact h
  · rename_i hk
    rw [List.nodup_append]
    refine ⟨h, by simp, ?_⟩
    intro a ha b hb
    rw [List.mem_singleton.1 hb]
    exact fun e => hk (e ▸ ha)

/-- Sets the value of a key (`ValueMap.set_param`). -/
def set (m : OrderedMap α) (key : String) (value : α) : OrderedMap α :=
  ⟨setEntry key value m.entries, nodup_setEntry key value m.nodup⟩

/-- Sets the value of a key, or nothing if there is no value (`ValueMap.set_opt`). -/
def setOption (m : OrderedMap α) (key : String) : Option α → OrderedMap α
  | some value => m.set key value
  | none => m

/-- Sets the value of a key to what was encoded, unless that failed (`ValueMap.set_json`). -/
def setEncoded (m : OrderedMap α) (key : String) (encoded : Except ε α) :
    Except ε (OrderedMap α) := encoded.map (m.set key)

/-- One call on a map, as a value. -/
inductive Call (ε α : Type) where
  | set (key : String) (value : α)
  | setOption (key : String) (value : Option α)
  | setEncoded (key : String) (encoded : Except ε α)

/-- The map after a call. -/
def apply (m : OrderedMap α) : Call ε α → Except ε (OrderedMap α)
  | .set key value => .ok (m.set key value)
  | .setOption key value => .ok (m.setOption key value)
  | .setEncoded key encoded => m.setEncoded key encoded

/-- The map made by calls, the first one first; there is none if a value cannot be encoded. -/
def ofCalls (calls : List (Call ε α)) : Except ε (OrderedMap α) := calls.foldlM apply ∅

/-- Sets every pair in turn. -/
def setAll (m : OrderedMap α) (pairs : List (String × α)) : OrderedMap α :=
  pairs.foldl (fun m pair => m.set pair.1 pair.2) m

/-- The map made by setting every pair in turn. -/
def ofList (pairs : List (String × α)) : OrderedMap α := (∅ : OrderedMap α).setAll pairs

/-- Applies a function to every value. -/
def map (f : α → β) (m : OrderedMap α) : OrderedMap β :=
  ⟨m.entries.map fun entry => (entry.1, f entry.2), by
    have : (Prod.fst ∘ fun entry : String × α => (entry.1, f entry.2)) = Prod.fst := rfl
    rw [List.map_map, this]
    exact m.nodup⟩

theorem keys_nodup (m : OrderedMap α) : m.keys.Nodup := m.nodup

theorem keys_set (m : OrderedMap α) (key : String) (value : α) :
    (m.set key value).keys = if key ∈ m.keys then m.keys else m.keys ++ [key] :=
  keys_setEntry key value m.entries

theorem forall_setEntry {P : String × α → Prop} {key : String} {value : α} (h : P (key, value))
    {entries : List (String × α)} (hentries : ∀ entry ∈ entries, P entry) :
    ∀ entry ∈ setEntry key value entries, P entry := by
  induction entries with
  | nil => simpa [setEntry] using h
  | cons entry rest ih =>
    obtain ⟨hentry, hrest⟩ := List.forall_mem_cons.1 hentries
    unfold setEntry
    split
    · exact List.forall_mem_cons.2 ⟨h, hrest⟩
    · exact List.forall_mem_cons.2 ⟨hentry, ih hrest⟩

/-- What holds of every entry, and of the pair that is set, holds of every entry afterwards. -/
theorem forall_entries_set {P : String × α → Prop} {m : OrderedMap α}
    (hm : ∀ entry ∈ m.entries, P entry) {key : String} {value : α} (h : P (key, value)) :
    ∀ entry ∈ (m.set key value).entries, P entry := forall_setEntry h hm

theorem forall_entries_setAll {P : String × α → Prop} {pairs : List (String × α)}
    (h : ∀ pair ∈ pairs, P pair) {m : OrderedMap α} (hm : ∀ entry ∈ m.entries, P entry) :
    ∀ entry ∈ (m.setAll pairs).entries, P entry := by
  induction pairs generalizing m with
  | nil => exact hm
  | cons pair rest ih =>
    obtain ⟨hpair, hrest⟩ := List.forall_mem_cons.1 h
    exact ih hrest (forall_entries_set hm hpair)

theorem setEntry_ne_nil (key : String) (value : α) (entries : List (String × α)) :
    setEntry key value entries ≠ [] := by
  cases entries with
  | nil => simp [setEntry]
  | cons entry rest =>
    unfold setEntry
    split <;> simp

/-- A map in which pairs are set has entries if it had some or there are pairs. -/
theorem entries_setAll_ne_nil {m : OrderedMap α} {pairs : List (String × α)}
    (h : m.entries ≠ [] ∨ pairs ≠ []) : (m.setAll pairs).entries ≠ [] := by
  cases pairs with
  | nil => exact h.resolve_right fun hne => hne rfl
  | cons pair rest =>
    exact List.foldlRecOn (motive := fun m : OrderedMap α => m.entries ≠ []) rest
      (fun m pair => m.set pair.1 pair.2) (setEntry_ne_nil pair.1 pair.2 m.entries)
      fun m _ pair _ => setEntry_ne_nil pair.1 pair.2 m.entries

theorem find?_setEntry (key : String) (value : α) (entries : List (String × α)) (k : String) :
    ((setEntry key value entries).find? (·.1 = k)).map Prod.snd =
      if k = key then some value else (entries.find? (·.1 = k)).map Prod.snd := by
  induction entries with
  | nil => by_cases h : key = k <;> simp [setEntry, h, eq_comm]
  | cons entry rest ih =>
    by_cases h : entry.1 = key
    · by_cases hk : k = key
      · simp [setEntry, h, hk]
      · have : ¬ key = k := fun e => hk e.symm
        simp [setEntry, h, hk, this]
    · by_cases hk : entry.1 = k
      · have : ¬ k = key := fun e => h (hk.trans e)
        simp [setEntry, hk, this]
      · simp only [setEntry, h, if_false, List.find?_cons, hk, decide_false]
        exact ih

theorem get?_set (m : OrderedMap α) (key : String) (value : α) (k : String) :
    (m.set key value).get? k = if k = key then some value else m.get? k :=
  find?_setEntry key value m.entries k

@[simp] theorem keys_map (f : α → β) (m : OrderedMap α) : (m.map f).keys = m.keys := by
  simp only [keys, map, List.map_map]
  rfl

end OrderedMap

end ParamSql
