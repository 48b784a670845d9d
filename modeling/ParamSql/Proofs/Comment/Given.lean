import ParamSql.Proofs.Comment.Wording
import ParamSql.Proofs.Projection.Forms
import ParamSql.Proofs.Rejections.Statements

/-!
# Where the texts of a rejection come from

The wording of a rejection shows texts of the caller: a name, an entry of a column list, a word of
order or a template, as it was given or a part of it. Texts that are never shown are those in the
caller's words that go into the statement as they are, and bound values.

Results:
* `Identifier.isAbout_parse`, `Projection.isAbout_parse`: the fault of a name shows parts of it.
* `GivenIn.marksIn_eq_nil`: texts that stand in others without marks of a comment have none.
* `SortKey.givenIn_rejections`: what is wrong with a sort key.
* `Predicate.givenIn_allFaults`: the faults of conditions.
-/

namespace ParamSql

variable {α : Type}

open Segment (double)
open Comment (HasMark marksIn)

/-! ## Faults of names -/

namespace Identifier

/-- The wording of the fault shows nothing but parts of this text. -/
def Fault.IsAbout (input : String) (fault : Fault) : Prop :=
  ∀ t ∈ fault.texts, t.toList <:+: input.toList

section

variable {input : String}

theorem isAbout_input {fault : Fault} (h : ∀ t ∈ fault.texts, t = input) : fault.IsAbout input :=
  fun t ht => by rw [h t ht]

theorem isAbout_character {fault : Fault} {c : Char} {rest : List Char}
    (h : c :: rest <:+ input.toList) (htexts : fault.texts = [c.toString, input]) :
    fault.IsAbout input := by
  intro t ht
  rw [htexts] at ht
  rcases List.mem_pair.1 ht with rfl | rfl
  · obtain ⟨front, hfront⟩ := h
    exact ⟨front, rest, by rw [← hfront]; simp⟩
  · exact List.infix_rfl

mutual

/-- Each reader is refused for something about the text, of which it reads the rest. -/
theorem isAbout_readSegments : ∀ {cs : List Char} {fault : Fault}, cs <:+ input.toList →
    readSegments input cs = .error fault → fault.IsAbout input := by
  intro cs fault hcs h
  unfold readSegments at h
  split at h
  · cases h
    exact isAbout_input (by simp [Fault.texts])
  · rename_i rest
    split at h
    · cases h
      exact isAbout_input (by simp [Fault.texts])
    · split at h
      · cases h
      · rename_i hread
        cases h
        exact isAbout_readQuoted ((List.suffix_cons _ _).trans hcs) hread
  · rename_i c rest _
    split at h
    · cases h
      exact isAbout_input (by simp [Fault.texts])
    · split at h
      · split at h
        · cases h
        · rename_i hread
          cases h
          exact isAbout_readPlain ((List.suffix_cons _ _).trans hcs) hread
      · cases h
        exact isAbout_character hcs rfl

theorem isAbout_readPlain : ∀ {cs : List Char} {fault : Fault}, cs <:+ input.toList →
    readPlain input cs = .error fault → fault.IsAbout input := by
  intro cs fault hcs h
  unfold readPlain at h
  split at h
  · cases h
  · split at h
    · cases h
    · rename_i hread
      cases h
      exact isAbout_readSegments ((List.suffix_cons _ _).trans hcs) hread
  · split at h
    · split at h
      · cases h
      · rename_i hread
        cases h
        exact isAbout_readPlain ((List.suffix_cons _ _).trans hcs) hread
    · cases h
      exact isAbout_character hcs rfl

theorem isAbout_readQuoted : ∀ {cs : List Char} {fault : Fault}, cs <:+ input.toList →
    readQuoted input cs = .error fault → fault.IsAbout input := by
  intro cs fault hcs h
  unfold readQuoted at h
  split at h
  · cases h
    exact isAbout_input (by simp [Fault.texts])
  · rename_i rest
    split at h
    · cases h
    · rename_i hread
      cases h
      have hrest : rest <:+ '"' :: '"' :: rest := ⟨['"', '"'], rfl⟩
      exact isAbout_readQuoted (hrest.trans hcs) hread
  · split at h
    · cases h
    · rename_i hread
      cases h
      exact isAbout_readAfterQuote ((List.suffix_cons _ _).trans hcs) hread
  · split at h
    · cases h
    · rename_i hread
      cases h
      exact isAbout_readQuoted ((List.suffix_cons _ _).trans hcs) hread

theorem isAbout_readAfterQuote : ∀ {cs : List Char} {fault : Fault}, cs <:+ input.toList →
    readAfterQuote input cs = .error fault → fault.IsAbout input := by
  intro cs fault hcs h
  unfold readAfterQuote at h
  split at h
  · cases h
  · split at h
    · cases h
    · rename_i hread
      cases h
      exact isAbout_readSegments ((List.suffix_cons _ _).trans hcs) hread
  · cases h
    exact isAbout_character hcs rfl

end

/-- The fault of a name shows nothing but parts of it. -/
theorem isAbout_parse {fault : Fault} (h : parse input = .error fault) : fault.IsAbout input := by
  simp only [parse] at h
  split at h
  · cases h
    exact isAbout_input (by simp [Fault.texts])
  split at h
  · cases h
    exact isAbout_input (by simp [Fault.texts])
  split at h
  · cases h
  · rename_i hread
    cases h
    exact isAbout_readSegments List.suffix_rfl hread

end

theorem Fault.IsAbout.mono {part input : String} {fault : Fault} (h : fault.IsAbout part)
    (hpart : part.toList <:+: input.toList) : fault.IsAbout input :=
  fun t ht => (h t ht).trans hpart

end Identifier

/-- The fault of an entry of a column list shows nothing but parts of it. -/
theorem Projection.isAbout_parse {input : String} {fault : Identifier.Fault}
    (h : parse input = .error fault) : fault.IsAbout input := by
  have htrim : Text.trim input.toList <:+: input.toList := by
    obtain ⟨front, back, -, -, hcs⟩ := (Text.trimmed_trim input.toList).around
    exact ⟨front, back, (List.append_assoc _ _ _).trans hcs.symm⟩
  simp only [parse] at h
  split at h
  · cases h
  split at h
  · rename_i owner howner
    have hpart : owner <:+: Text.trim input.toList := by
      rw [eq_of_stripWildcard? howner]
      exact List.infix_append' [] owner _
    refine (Identifier.isAbout_parse (map_eq_error_iff.1 h)).mono ?_
    rw [String.toList_ofList]
    exact hpart.trans htrim
  · refine (Identifier.isAbout_parse (map_eq_error_iff.1 h)).mono ?_
    rwa [String.toList_ofList]

/-! ## Texts among given ones -/

/-- The text stands in another one, as it is or with its quotes doubled. -/
def StandsIn (text given : String) : Prop :=
  text.toList <:+: given.toList ∨ double text.toList <:+: given.toList

/-- Every text that is shown stands in one that is given. -/
def GivenIn (given shown : List String) : Prop := ∀ t ∈ shown, ∃ g ∈ given, StandsIn t g

/-- A text has no marks of its own if the text that it stands in has none. -/
theorem StandsIn.marksIn_eq_nil {text given : String} (h : StandsIn text given)
    (hgiven : ¬ HasMark given.toList) : marksIn text = [] := by
  rw [marksIn]
  rcases h with hpart | hpart
  · exact Comment.marks_eq_nil fun hmark => hgiven (hmark.mono hpart)
  · rw [← Comment.marks_double]
    exact Comment.marks_eq_nil fun hmark => hgiven (hmark.mono hpart)

namespace GivenIn

variable {κ : Type} {given given' shown shown' : List String}

theorem nil : GivenIn given [] := fun _ h => nomatch h

theorem refl : GivenIn given given := fun t ht => ⟨t, ht, .inl List.infix_rfl⟩

theorem mono (h : GivenIn given shown) (hsub : given ⊆ given') : GivenIn given' shown := fun t ht =>
  let ⟨g, hg, hstands⟩ := h t ht
  ⟨g, hsub hg, hstands⟩

theorem cons (h : GivenIn given shown) (text : String) : GivenIn (text :: given) shown :=
  h.mono (List.subset_cons_self _ _)

theorem append (h : GivenIn given shown) (h' : GivenIn given shown') :
    GivenIn given (shown ++ shown') := fun t ht =>
  (List.mem_append.1 ht).elim (h t) (h' t)

/-- What two parts show is given if it is given for each. -/
theorem parts (h : GivenIn given shown) (h' : GivenIn given' shown') :
    GivenIn (given ++ given') (shown ++ shown') :=
  (h.mono (List.subset_append_left _ _)).append (h'.mono (List.subset_append_right _ _))

/-- What each of several things shows is given if it is given for each. -/
theorem flatMap {give shows : κ → List String} {xs : List κ}
    (h : ∀ x ∈ xs, GivenIn (give x) (shows x)) :
    GivenIn (xs.flatMap give) (xs.flatMap shows) := by
  intro t ht
  obtain ⟨x, hx, ht⟩ := List.mem_flatMap.1 ht
  obtain ⟨g, hg, hstands⟩ := h x hx t ht
  exact ⟨g, List.mem_flatMap.2 ⟨x, hx, hg⟩, hstands⟩

theorem marksIn_eq_nil (h : GivenIn given shown) (hgiven : ∀ g ∈ given, ¬ HasMark g.toList) :
    shown.flatMap marksIn = [] := by
  refine List.flatMap_eq_nil_iff.2 fun t ht => ?_
  obtain ⟨g, hg, hstands⟩ := h t ht
  exact hstands.marksIn_eq_nil (hgiven g hg)

end GivenIn

/-- What the wordings of rejections show. -/
def shownBy (causes : List Rejection) : List String := causes.flatMap Rejection.texts

@[simp] theorem shownBy_append (causes more : List Rejection) :
    shownBy (causes ++ more) = shownBy causes ++ shownBy more := List.flatMap_append

theorem shownBy_flatMap {κ : Type} (xs : List κ) (causes : κ → List Rejection) :
    shownBy (xs.flatMap causes) = xs.flatMap fun x => shownBy (causes x) := List.flatMap_assoc

/-! ## Names and sort keys -/

theorem givenIn_faultsOf {β : Type} {read : String → Except Identifier.Fault β}
    (h : ∀ {name fault}, read name = .error fault → fault.IsAbout name) (names : List String) :
    GivenIn names
      ((names.flatMap fun name => faultOf (read name)).flatMap Identifier.Fault.texts) := by
  intro t ht
  obtain ⟨fault, hfault, ht⟩ := List.mem_flatMap.1 ht
  obtain ⟨name, hname, hfault⟩ := List.mem_flatMap.1 hfault
  exact ⟨name, hname, .inl (h (mem_faultOf_iff.1 hfault) t ht)⟩

theorem givenIn_nameFaults (names : List String) :
    GivenIn names ((nameFaults names).flatMap Identifier.Fault.texts) :=
  givenIn_faultsOf Identifier.isAbout_parse names

theorem givenIn_entryFaults (names : List String) :
    GivenIn names ((entryFaults names).flatMap Identifier.Fault.texts) :=
  givenIn_faultsOf Projection.isAbout_parse names

theorem givenIn_nameRejections (names : List String) :
    GivenIn names (shownBy (nameRejections names)) := by
  rw [shownBy, nameRejections, List.flatMap_map]
  exact givenIn_nameFaults names

/-- What is wrong with the names of calls, and with the table of a statement. -/
theorem givenIn_named {κ : Type} {texts : κ → List String} {faults : κ → List Identifier.Fault}
    (h : ∀ call, GivenIn (texts call) ((faults call).flatMap Identifier.Fault.texts))
    (table : String) (calls : List κ) :
    GivenIn (table :: calls.flatMap texts)
      (shownBy (recordedNames (calls.flatMap faults) ++ nameRejections [table])) := by
  have hcalls := GivenIn.flatMap fun call (_ : call ∈ calls) => h call
  have htable := givenIn_nameRejections [table]
  rw [← List.flatMap_assoc] at hcalls
  rw [shownBy_append, shownBy, recordedNames, List.flatMap_map]
  exact (hcalls.cons table).append (htable.mono (by simp))

namespace SortKey

/-- The texts of a sort key. -/
def texts (k : SortKey) : List String := [k.column, k.direction] ++ k.nulls.toList

theorem givenIn_rejections (k : SortKey) : GivenIn k.texts (shownBy k.rejections) := by
  rw [rejections, shownBy_append, shownBy_append]
  refine ((givenIn_nameRejections [k.column]).mono (by simp [texts])).append ?_ |>.append ?_
  · split
    · exact .nil
    · exact GivenIn.refl.mono (by simp [shownBy, Rejection.texts, texts])
  · cases hnulls : k.nulls with
    | none => exact .nil
    | some nulls =>
      rw [Option.toList_some, List.flatMap_singleton]
      split
      · exact .nil
      · exact GivenIn.refl.mono (by simp [shownBy, Rejection.texts, texts, hnulls])

end SortKey

/-! ## Conditions -/

/-- The text of a column that is given as text. -/
def ColumnName.texts : ColumnName → List String
  | .text name => [name]
  | .known _ => []

theorem ColumnName.givenIn_faults (name : ColumnName) :
    GivenIn name.texts (name.faults.flatMap BuildFault.texts) := by
  rw [faults, List.flatMap_map]
  cases name with
  | text name =>
    have hname := givenIn_nameFaults [name]
    rwa [nameFaults, List.flatMap_singleton] at hname
  | known x => exact .nil

namespace Predicate

namespace Call

mutual

/-- The texts of a call that can be shown: names and templates. -/
def texts : Call α → List String
  | .equal _ column _ => column.texts
  | .equalAll columns => columns.keys
  | .oneOf _ column _ => column.texts
  | .noneOf column _ => column.texts
  | .raw _ _ => []
  | .template sql _ => [sql]
  | .all => []
  | .group _ calls => allTexts calls
  | .merge calls => allTexts calls

/-- The texts of calls that can be shown. -/
def allTexts : List (Call α) → List String
  | [] => []
  | call :: calls => texts call ++ allTexts calls

end

theorem allTexts_eq (calls : List (Call α)) : allTexts calls = calls.flatMap texts := by
  induction calls with
  | nil => rfl
  | cons call calls ih => rw [allTexts, List.flatMap_cons, ih]

end Call

open Call (faults allFaults texts allTexts)

mutual

theorem givenIn_faults : ∀ call : Call α, GivenIn call.texts (call.faults.flatMap BuildFault.texts)
  | .equal _ column _ => column.givenIn_faults
  | .equalAll columns => by
    have hkeys := GivenIn.flatMap fun key (_ : key ∈ columns.keys) =>
      (ColumnName.text key).givenIn_faults
    simp only [ColumnName.texts, List.flatMap_singleton'] at hkeys
    rwa [← List.flatMap_assoc] at hkeys
  | .oneOf _ column _ => column.givenIn_faults
  | .noneOf column _ => column.givenIn_faults
  | .raw _ _ => .nil
  | .template sql values => by
    rw [faults]
    split
    · exact .nil
    · exact .refl
  | .all => .nil
  | .group _ calls => givenIn_allFaults calls
  | .merge calls => givenIn_allFaults calls

/-- The faults of conditions show nothing but names and templates of their calls. -/
theorem givenIn_allFaults : ∀ calls : List (Call α),
    GivenIn (allTexts calls) ((allFaults calls).flatMap BuildFault.texts)
  | [] => .nil
  | call :: calls => by
    rw [allTexts, allFaults, List.flatMap_append]
    exact (givenIn_faults call).parts (givenIn_allFaults calls)

end

end Predicate

open Predicate.Call (allTexts)

theorem givenIn_recordedFilters (calls : List (Predicate.Call α)) :
    GivenIn (allTexts calls) (shownBy (recordedFilters calls)) := by
  rw [shownBy, recordedFilters, List.flatMap_map]
  exact Predicate.givenIn_allFaults calls

theorem givenIn_conditionRejections (calls : List (Predicate.Call α)) :
    GivenIn (allTexts calls) (shownBy (conditionRejections calls)) := by
  rw [conditionRejections, shownBy_append]
  refine (givenIn_recordedFilters calls).append ?_
  split <;> exact .nil

/-- The conditions that calls on a statement bring have their texts from the calls. -/
theorem allTexts_filterMap {κ : Type} {filter? : κ → Option (Predicate.Call α)}
    {texts : κ → List String}
    (h : ∀ call filter, filter? call = some filter → filter.texts ⊆ texts call) (calls : List κ) :
    allTexts (calls.filterMap filter?) ⊆ calls.flatMap texts := by
  rw [Predicate.Call.allTexts_eq]
  intro t ht
  obtain ⟨filter, hfilter, ht⟩ := List.mem_flatMap.1 ht
  obtain ⟨call, hcall, hsome⟩ := List.mem_filterMap.1 hfilter
  exact List.mem_flatMap.2 ⟨call, hcall, h call filter hsome ht⟩

end ParamSql
