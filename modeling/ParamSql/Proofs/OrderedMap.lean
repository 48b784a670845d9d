import Mathlib.Data.List.Induction
import ParamSql.Proofs.Statement.Rows

/-!
# Keys that are set again

Setting a key again leaves it where it stands, with the new value. So of pairs that are set one
after the other every key is kept once, where it was first set, with what it was last set to.

Results:
* `keys_ofList`, `get?_ofList`: keys and values after any number of pairs.
* `Merges.ofList`: the entries of a map are its pairs, merged.
* `Merges.unique`: pairs are merged in one way only.
* `Merges.rename`: keys that are renamed, no two of them to the same.
-/

namespace ParamSql

variable {β : Type}

/-- Every key stands once, where it was first given, with what was given for it last. -/
structure Merges (given merged : List (String × β)) : Prop where
  order : merged.map Prod.fst = (given.map Prod.fst).eraseDups
  last : ∀ entry ∈ merged, given.reverse.lookup entry.1 = some entry.2

/-! ## Keys without repetition -/

theorem eraseDups_concat (keys : List String) (key : String) :
    (keys ++ [key]).eraseDups =
      if key ∈ keys then keys.eraseDups else keys.eraseDups ++ [key] := by
  rw [List.eraseDups_append]
  by_cases hmem : key ∈ keys
  · rw [if_pos hmem]
    simp [List.removeAll, hmem]
  · rw [if_neg hmem]
    simp [List.removeAll, hmem, List.eraseDups_cons]

theorem nodup_eraseDups (keys : List String) : keys.eraseDups.Nodup := by
  induction keys using List.reverseRecOn with
  | nil => exact List.nodup_nil
  | append_singleton keys key ih =>
    rw [eraseDups_concat]
    by_cases hmem : key ∈ keys
    · rwa [if_pos hmem]
    · rw [if_neg hmem, List.nodup_append]
      refine ⟨ih, by simp, fun k hk other hother e => hmem ?_⟩
      obtain rfl := List.mem_singleton.1 hother
      rw [← List.mem_eraseDups, ← e]
      exact hk

/-- Renaming keys, no two of them to the same, keeps which of them are repetitions. -/
theorem eraseDups_map {rename : String → String} {keys : List String}
    (h : ∀ key ∈ keys, ∀ other ∈ keys, rename key = rename other → key = other) :
    (keys.map rename).eraseDups = keys.eraseDups.map rename := by
  induction keys using List.reverseRecOn with
  | nil => rfl
  | append_singleton keys key ih =>
    have hbefore := ih fun k hk other hother =>
      h k (List.mem_append_left _ hk) other (List.mem_append_left _ hother)
    have hmem : rename key ∈ keys.map rename ↔ key ∈ keys := by
      refine ⟨fun hrenamed => ?_, List.mem_map_of_mem⟩
      obtain ⟨other, hother, hsame⟩ := List.mem_map.1 hrenamed
      rwa [← h other (List.mem_append_left _ hother) key (by simp) hsame]
    rw [List.map_append, List.map_singleton, eraseDups_concat, eraseDups_concat, hbefore]
    simp only [hmem]
    split
    · rfl
    · rw [List.map_append, List.map_singleton]

theorem lookup_rename {rename : String → String} {entries : List (String × β)} {key : String}
    (h : ∀ entry ∈ entries, rename key = rename entry.1 → key = entry.1) :
    (entries.map fun entry => (rename entry.1, entry.2)).lookup (rename key) =
      entries.lookup key := by
  induction entries with
  | nil => rfl
  | cons entry rest ih =>
    obtain ⟨hentry, hrest⟩ := List.forall_mem_cons.1 h
    have hsame : (rename key == rename entry.1) = (key == entry.1) := by
      rw [Bool.eq_iff_iff, beq_iff_eq, beq_iff_eq]
      exact ⟨hentry, congrArg rename⟩
    rw [List.map_cons, List.lookup_cons, List.lookup_cons, hsame, ih hrest]

/-- Entries are their keys with what is looked up for these. -/
theorem eq_filterMap_keys {entries : List (String × β)} (value : String → Option β)
    (h : ∀ entry ∈ entries, value entry.1 = some entry.2) :
    entries = (entries.map Prod.fst).filterMap fun key => (value key).map (Prod.mk key) := by
  have hentry : ∀ entry ∈ entries, (value entry.1).map (Prod.mk entry.1) = some entry :=
    fun entry hentry => by
      rw [h entry hentry]
      rfl
  rw [List.filterMap_map]
  exact List.filterMap_some.symm.trans (List.filterMap_congr fun e he => (hentry e he).symm)

/-! ## Setting pairs in turn -/

namespace OrderedMap

theorem ofList_concat (pairs : List (String × β)) (pair : String × β) :
    ofList (pairs ++ [pair]) = (ofList pairs).set pair.1 pair.2 := List.foldl_append

/-- The keys stand in the order in which they were first set. -/
theorem keys_ofList (pairs : List (String × β)) :
    (ofList pairs).keys = (pairs.map Prod.fst).eraseDups := by
  -- From the right, since the last pair is set in the map that those before it give.
  induction pairs using List.reverseRecOn with
  | nil => rfl
  | append_singleton pairs pair ih =>
    rw [ofList_concat, keys_set, ih, List.map_append, List.map_singleton, eraseDups_concat]
    simp only [List.mem_eraseDups]

/-- A key has the value that it was last set to. -/
theorem get?_ofList (pairs : List (String × β)) (key : String) :
    (ofList pairs).get? key = pairs.reverse.lookup key := by
  induction pairs using List.reverseRecOn with
  | nil => rfl
  | append_singleton pairs pair ih =>
    rw [ofList_concat, get?_set, ih, List.reverse_append, List.reverse_singleton,
      List.singleton_append, List.lookup_cons]
    by_cases hkey : key = pair.1
    · rw [if_pos hkey, hkey, beq_self_eq_true]
    · rw [if_neg hkey, beq_eq_false_iff_ne.2 hkey]

end OrderedMap

namespace Merges

variable {given merged merged' : List (String × β)}

/-- Pairs that are set in turn are merged. -/
theorem ofList (pairs : List (String × β)) : Merges pairs (OrderedMap.ofList pairs).entries where
  order := OrderedMap.keys_ofList pairs
  last := fun entry hentry =>
    (OrderedMap.get?_ofList pairs entry.1).symm.trans (OrderedMap.get?_of_mem _ hentry)

/-- The keys are those that were given. -/
theorem mem_keys (h : Merges given merged) {key : String} :
    key ∈ merged.map Prod.fst ↔ key ∈ given.map Prod.fst := by
  rw [h.order, List.mem_eraseDups]

theorem nodup (h : Merges given merged) : (merged.map Prod.fst).Nodup := by
  rw [h.order]
  exact nodup_eraseDups _

/-- Pairs are merged in one way only. -/
theorem unique (h : Merges given merged) (h' : Merges given merged') : merged = merged' := by
  -- The keys and what is looked up for them give the entries back.
  rw [eq_filterMap_keys (fun key => given.reverse.lookup key) h.last,
    eq_filterMap_keys (fun key => given.reverse.lookup key) h'.last, h.order, h'.order]

/-- Keys may be renamed before or after, if no two of them are renamed to the same. -/
theorem rename {rename : String → String} (h : Merges given merged)
    (hrename : ∀ key ∈ given.map Prod.fst, ∀ other ∈ given.map Prod.fst,
      rename key = rename other → key = other) :
    Merges (given.map fun entry => (rename entry.1, entry.2))
      (merged.map fun entry => (rename entry.1, entry.2)) where
  order := by
    have hkeys (entries : List (String × β)) :
        (entries.map fun entry => (rename entry.1, entry.2)).map Prod.fst =
          (entries.map Prod.fst).map rename := by
      rw [List.map_map, List.map_map]
      rfl
    rw [hkeys, hkeys, h.order, eraseDups_map hrename]
  last := by
    refine List.forall_mem_map.2 fun entry hentry => ?_
    have hgiven : entry.1 ∈ given.map Prod.fst := h.mem_keys.1 (List.mem_map_of_mem hentry)
    rw [← List.map_reverse, lookup_rename fun other hother => ?_]
    · exact h.last entry hentry
    · exact hrename entry.1 hgiven other.1 (List.mem_map_of_mem (List.mem_reverse.1 hother))

end Merges

end ParamSql
