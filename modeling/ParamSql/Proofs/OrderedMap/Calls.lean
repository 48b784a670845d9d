import Mathlib.Data.Finset.Card
import ParamSql.Proofs.OrderedMap

/-!
# Maps made by calls

A map is made by calls of several kinds, each of which sets one key, or none: an optional value that
is not there sets nothing, and a value that cannot be encoded ends the calls without a map. What the
map shows afterwards is found from the pairs that were set, whatever calls set them.

Results:
* `foldlM_apply`: calls that do not fail set their pairs in turn.
* `getElem?_setEntry_of_ne`: other entries stay where they are.
* `pairwise_eraseDups`: kept keys stand in the order of their first places.
* `ofCalls_ordered`: what a map shows of the calls that made it.
-/

namespace ParamSql.OrderedMap

variable {α ε : Type}

/-! ## What calls set -/

/-- The pair that a call sets, if it sets one. -/
def Call.sets? : Call ε α → Option (String × α)
  | .set key value => some (key, value)
  | .setOption key value => value.map (Prod.mk key)
  | .setEncoded key encoded => encoded.toOption.map (Prod.mk key)

/-- Why a call fails, if it does. -/
def Call.failure? : Call ε α → Option ε
  | .setEncoded _ (.error e) => some e
  | _ => none

/-- The value that a call sets a key to, if it sets this key. -/
def Call.value? (key : String) (call : Call ε α) : Option α :=
  call.sets?.bind fun pair => if key = pair.1 then some pair.2 else none

/-- The keys that calls set, one for each setting. -/
def keysSet (calls : List (Call ε α)) : List String := (calls.filterMap Call.sets?).map Prod.fst

/-- The values that calls set a key to, one for each setting. -/
def valuesSet (key : String) (calls : List (Call ε α)) : List α :=
  calls.filterMap (Call.value? key)

/-- What a map shows of the calls that made it. -/
structure MadeBy (m : OrderedMap α) (calls : List (Call ε α)) : Prop where
  /-- Every key that was set stands once, -/
  nodup : m.keys.Nodup
  mem_keys : ∀ key, key ∈ m.keys ↔ key ∈ keysSet calls
  /-- and before those that were first set after it. -/
  order : m.keys.Pairwise fun key other => (keysSet calls).idxOf key < (keysSet calls).idxOf other
  /-- It has the value that it was last set to. -/
  get? : ∀ key, m.get? key = (valuesSet key calls).getLast?
  contains : ∀ key, m.contains key = true ↔ key ∈ keysSet calls
  size : m.size = (keysSet calls).toFinset.card
  isEmpty : m.isEmpty = true ↔ keysSet calls = []
  entries : m.entries = m.keys.filterMap fun key => (m.get? key).map (Prod.mk key)

/-! ## One call -/

/-- A call that does not fail sets its pair, if it has one. -/
theorem apply_eq_ok_iff (m after : OrderedMap α) (call : Call ε α) :
    m.apply call = .ok after ↔ call.failure? = none ∧ after = m.setAll call.sets?.toList := by
  rcases call with ⟨key, value⟩ | ⟨key, _ | value⟩ | ⟨key, e | value⟩ <;>
    simp [apply, Call.failure?, Call.sets?, setAll, setOption, setEncoded, Except.map,
      Except.toOption, eq_comm]

/-- Setting a key leaves every other entry where it is, with its value, and adds no other one. -/
theorem getElem?_setEntry_of_ne {key other : String} (h : other ≠ key) (value v : α)
    (entries : List (String × α)) (i : Nat) :
    (setEntry key value entries)[i]? = some (other, v) ↔ entries[i]? = some (other, v) := by
  have hnew : (key, value) ≠ (other, v) := fun e => h (congrArg Prod.fst e).symm
  induction entries generalizing i with
  | nil => cases i <;> simp [setEntry, hnew]
  | cons entry rest ih =>
    rw [setEntry]
    split
    · rename_i hkey
      have hold : entry ≠ (other, v) := by
        rintro rfl
        exact h hkey
      cases i <;> simp [hnew, hold]
    · cases i with
      | zero => rfl
      | succ i => exact ih i

/-- A call leaves every entry where it is whose key it does not set. -/
theorem getElem?_apply {m after : OrderedMap α} {call : Call ε α} (h : m.apply call = .ok after)
    {other : String} (hother : call.value? other = none) (i : Nat) (v : α) :
    after.entries[i]? = some (other, v) ↔ m.entries[i]? = some (other, v) := by
  obtain ⟨-, rfl⟩ := (apply_eq_ok_iff m after call).1 h
  cases hsets : call.sets? with
  | none => rfl
  | some pair =>
    have hne : other ≠ pair.1 := fun e => by simp [Call.value?, hsets, e] at hother
    exact getElem?_setEntry_of_ne hne pair.2 v m.entries i

/-! ## All calls -/

/-- Calls set their pairs in turn, up to the first that fails. -/
theorem foldlM_apply (calls : List (Call ε α)) (m : OrderedMap α) :
    calls.foldlM apply m =
      match (calls.filterMap Call.failure?).head? with
      | some e => .error e
      | none => .ok (m.setAll (calls.filterMap Call.sets?)) := by
  induction calls generalizing m with
  | nil => rfl
  | cons call rest ih =>
    rw [List.foldlM_cons]
    cases hfailure : call.failure? with
    | some e =>
      rcases call with _ | _ | ⟨key, e' | value⟩ <;> cases hfailure
      rfl
    | none =>
      rw [(apply_eq_ok_iff m _ call).2 ⟨hfailure, rfl⟩]
      refine (ih _).trans ?_
      rw [List.filterMap_cons_none hfailure, List.filterMap_cons]
      cases call.sets? <;> rfl

theorem ofCalls_eq_ok_iff (calls : List (Call ε α)) (m : OrderedMap α) :
    ofCalls calls = .ok m ↔
      (∀ call ∈ calls, call.failure? = none) ∧ m = ofList (calls.filterMap Call.sets?) := by
  rw [ofCalls, foldlM_apply, ← List.filterMap_eq_nil_iff]
  cases calls.filterMap Call.failure? with
  | nil => simp [ofList, eq_comm]
  | cons e rest => simp

/-! ## Order and last values -/

/-- Of keys with repetitions, those that are kept stand in the order of their first places. -/
theorem pairwise_eraseDups (keys : List String) :
    keys.eraseDups.Pairwise fun key other => keys.idxOf key < keys.idxOf other := by
  -- From the right, since a further key is either a repetition or stands behind all others.
  induction keys using List.reverseRecOn with
  | nil => exact .nil
  | append_singleton keys last ih =>
    have hfirst {key : String} (h : key ∈ keys.eraseDups) :
        (keys ++ [last]).idxOf key = keys.idxOf key :=
      List.idxOf_append_of_mem (List.mem_eraseDups.1 h)
    have hbefore : keys.eraseDups.Pairwise fun key other =>
        (keys ++ [last]).idxOf key < (keys ++ [last]).idxOf other :=
      ih.imp_of_mem fun hkey hother hlt => by rwa [hfirst hkey, hfirst hother]
    rw [eraseDups_concat]
    split
    · exact hbefore
    · rename_i hlast
      refine List.pairwise_append.2
        ⟨hbefore, List.pairwise_singleton _ _, fun key hkey other hother => ?_⟩
      rw [List.mem_singleton.1 hother, hfirst hkey, List.idxOf_append_of_notMem hlast]
      have hlt := List.idxOf_lt_length_iff.2 (List.mem_eraseDups.1 hkey)
      omega

theorem getLast?_valuesSet (key : String) (calls : List (Call ε α)) :
    (valuesSet key calls).getLast? = (calls.filterMap Call.sets?).reverse.lookup key := by
  have hvalues : valuesSet key calls = (calls.filterMap Call.sets?).filterMap fun pair =>
      if key = pair.1 then some pair.2 else none := (List.filterMap_filterMap ..).symm
  rw [hvalues, List.getLast?_filterMap, List.lookup_eq_findSome?]
  simp only [beq_iff_eq]

theorem size_ofList (pairs : List (String × α)) :
    (ofList pairs).size = (pairs.map Prod.fst).toFinset.card := by
  have hkeys : (pairs.map Prod.fst).toFinset = (ofList pairs).keys.toFinset := by
    ext key
    rw [List.mem_toFinset, List.mem_toFinset, keys_ofList, List.mem_eraseDups]
  rw [hkeys, List.toFinset_card_of_nodup (keys_nodup _), size_eq]

/-- The entries are the keys with what they are looked up to. -/
theorem entries_eq (m : OrderedMap α) :
    m.entries = m.keys.filterMap fun key => (m.get? key).map (Prod.mk key) :=
  eq_filterMap_keys m.get? fun _ hentry => m.get?_of_mem hentry

theorem madeBy_ofList (calls : List (Call ε α)) :
    (ofList (calls.filterMap Call.sets?)).MadeBy calls where
  nodup := keys_nodup _
  mem_keys key := by rw [keys_ofList, List.mem_eraseDups, keysSet]
  order := by
    rw [keys_ofList]
    exact pairwise_eraseDups (keysSet calls)
  get? key := by rw [get?_ofList, getLast?_valuesSet]
  contains key := by rw [contains_iff, keys_ofList, List.mem_eraseDups, keysSet]
  size := size_ofList _
  isEmpty := by
    rw [isEmpty_iff, List.eq_nil_iff_forall_not_mem, List.eq_nil_iff_forall_not_mem, keys_ofList]
    simp only [List.mem_eraseDups, keysSet]
  entries := entries_eq _

/-- Calls make a map unless one of them fails. It shows every key that was set once, in the order of
first settings, with the value of its last setting; and a further call leaves all other keys where
they stand, with their values. -/
theorem ofCalls_ordered (calls : List (Call ε α)) :
    ((∃ m, ofCalls calls = .ok m) ↔ ∀ call ∈ calls, call.failure? = none) ∧
      ∀ m, ofCalls calls = .ok m → m.MadeBy calls ∧
        ∀ (call : Call ε α) (after : OrderedMap α), m.apply call = .ok after →
          ∀ other, call.value? other = none → ∀ (i : Nat) (v : α),
            after.entries[i]? = some (other, v) ↔ m.entries[i]? = some (other, v) := by
  refine ⟨⟨fun ⟨m, hm⟩ => ((ofCalls_eq_ok_iff calls m).1 hm).1,
    fun h => ⟨_, (ofCalls_eq_ok_iff calls _).2 ⟨h, rfl⟩⟩⟩, fun m hm => ?_⟩
  obtain ⟨-, rfl⟩ := (ofCalls_eq_ok_iff calls m).1 hm
  exact ⟨madeBy_ofList calls, fun call after hcall other hother i v =>
    getElem?_apply hcall hother i v⟩

/-- Calls of all kinds: a key that is set again, one that is set late, and one without a value. -/
def filmCalls : List (Call String Nat) :=
  [.set "title" 1, .setOption "rating" none, .setEncoded "length" (.ok 2), .set "title" 3,
    .setOption "rating" (some 4), .setOption "note" none]

theorem ofCalls_filmCalls :
    ∃ m, ofCalls filmCalls = .ok m ∧ m.MadeBy filmCalls ∧
      m.keys = ["title", "length", "rating"] ∧ m.get? "title" = some 3 ∧ m.get? "note" = none ∧
      ∃ after, m.apply (.set "title" 5 : Call String Nat) = .ok after ∧
        after.entries[1]? = some ("length", 2) := by
  obtain ⟨hmade, hshows⟩ := ofCalls_ordered filmCalls
  obtain ⟨m, hm⟩ := hmade.2 (by decide)
  obtain ⟨hmadeBy, hother⟩ := hshows m hm
  have hkeys : m.keys = ["title", "length", "rating"] := by
    obtain ⟨-, rfl⟩ := (ofCalls_eq_ok_iff filmCalls m).1 hm
    decide
  have hentry : m.entries[1]? = some ("length", 2) := by
    obtain ⟨-, rfl⟩ := (ofCalls_eq_ok_iff filmCalls m).1 hm
    decide
  exact ⟨m, hm, hmadeBy, hkeys, hmadeBy.get? "title", hmadeBy.get? "note", _, rfl,
    (hother (.set "title" 5) _ rfl "length" (by decide) 1 2).2 hentry⟩

end ParamSql.OrderedMap
