import ParamSql.Proofs.Identifier.Grammar
import ParamSql.Proofs.Select.Texts

/-!
# Sort keys without regard to case

The words of a sort key are compared letter by letter, and the case of the letters of ASCII is all
that does not count: a word with blanks around it, or with a letter that only looks like one of
them, is refused. What is written are the words of the language and not those of the caller, so
keys that differ in case are written alike.

Results:
* `upper_eq_upper_iff`: texts with the same upper case differ in the case of letters only.
* `isSound_iff`, `refusedFor_iff`: the keys that can be written, and why others are refused.
* `written_text`: a key is written with words of the language.
* `toOption_phrase_congr`: the case of letters is not seen in what is written.
* `clause_words`: the ORDER BY clause of keys that are made by calls.
-/

namespace ParamSql

variable {α : Type}

/-! ## Letters without regard to case -/

/-- The characters are the same, or one letter in both of its cases. -/
def SameLetter (c d : Char) : Prop :=
  c = d ∨ IsLetter c ∧ IsLetter d ∧ (c.toNat + 32 = d.toNat ∨ d.toNat + 32 = c.toNat)

/-- The texts differ in the case of letters of ASCII only. -/
def SameLetters (s t : String) : Prop := List.Forall₂ SameLetter s.toList t.toList

theorem toNat_toUpper (c : Char) : c.toUpper.toNat =
    if 97 ≤ c.toNat ∧ c.toNat ≤ 122 then c.toNat - 32 else c.toNat := by
  have hrange : ('a'.val ≤ c.val ∧ c.val ≤ 'z'.val) ↔ 97 ≤ c.toNat ∧ c.toNat ≤ 122 := by
    rw [UInt32.le_iff_toNat_le, UInt32.le_iff_toNat_le]
    rfl
  delta Char.toUpper
  split
  · rename_i h
    have hlower := hrange.1 h
    -- the distance between the cases is added as a 32-bit number, and wraps
    have hwrap : ('A'.val - 'a'.val).toNat = 2 ^ 32 - 32 := rfl
    have hsum : (c.val + ('A'.val - 'a'.val)).toNat = c.toNat - 32 := by
      rw [UInt32.toNat_add, hwrap, Char.toNat_val]
      omega
    rw [if_pos hlower]
    exact hsum
  · rename_i h
    rw [if_neg (mt hrange.2 h)]

theorem toUpper_eq_toUpper_iff (c d : Char) : c.toUpper = d.toUpper ↔ SameLetter c d := by
  rw [← Char.toNat_inj, toNat_toUpper, toNat_toUpper, SameLetter, ← Char.toNat_inj, isLetter_iff,
    isLetter_iff]
  split <;> split <;> omega

namespace Text

theorem upper_eq_upper_iff (s t : String) : upper s = upper t ↔ SameLetters s t := by
  rw [upper, upper, String.ofList_inj, ← List.forall₂_eq_eq_eq, List.forall₂_map_left_iff,
    List.forall₂_map_right_iff, SameLetters]
  simp only [toUpper_eq_toUpper_iff]

/-- A word in upper case is what the texts with its letters have in common. -/
theorem upper_eq_iff {word : String} (h : upper word = word) (text : String) :
    upper text = word ↔ SameLetters text word := by
  rw [← upper_eq_upper_iff, h]

end Text

namespace SortKey

open Text (upper upper_eq_iff upper_eq_upper_iff)

/-! ## Keys that can be written -/

/-- The words for a direction. -/
def directionWords : List String := [ascWord, descWord]

/-- The words for a place of nulls. -/
def nullsWords : List String := [firstWord, lastWord]

/-- The text is one of the words, in any case of letters. -/
def IsOneOf (words : List String) (text : String) : Prop := ∃ word ∈ words, SameLetters text word

theorem isOneOf_iff {words : List String} (h : ∀ word ∈ words, upper word = word) (text : String) :
    IsOneOf words text ↔ upper text ∈ words := by
  constructor
  · rintro ⟨word, hword, hsame⟩
    rwa [(upper_eq_iff (h word hword) text).2 hsame]
  · intro hword
    exact ⟨upper text, hword, (upper_eq_iff (h _ hword) text).1 rfl⟩

theorem upper_directionWords : ∀ word ∈ directionWords, upper word = word := by decide

theorem upper_nullsWords : ∀ word ∈ nullsWords, upper word = word := by decide

theorem isDirection_iff (text : String) :
    IsOneOf directionWords text ↔ upper text = ascWord ∨ upper text = descWord := by
  rw [isOneOf_iff upper_directionWords, directionWords]
  simp

theorem isNulls_iff (text : String) :
    IsOneOf nullsWords text ↔ upper text = firstWord ∨ upper text = lastWord := by
  rw [isOneOf_iff upper_nullsWords, nullsWords]
  simp

/-- A key that can be written. -/
structure IsSound (k : SortKey) : Prop where
  column : NameText k.column.toList
  direction : IsOneOf directionWords k.direction
  nulls : ∀ word, k.nulls = some word → IsOneOf nullsWords word

/-- What a key is refused for: its column, or else its direction, or else its place of nulls. -/
inductive RefusedFor (k : SortKey) : Rejection → Prop where
  | column {fault : Identifier.Fault} : ¬ NameText k.column.toList →
      Identifier.parse k.column = .error fault → k.RefusedFor (.identifier fault)
  | direction : NameText k.column.toList → ¬ IsOneOf directionWords k.direction →
      k.RefusedFor (.sortDirection k.direction k.column)
  | nulls {word : String} : NameText k.column.toList → IsOneOf directionWords k.direction →
      k.nulls = some word → ¬ IsOneOf nullsWords word → k.RefusedFor (.sortNulls word k.column)

theorem nameText_iff (column : String) :
    NameText column.toList ↔ nameRejections [column] = [] := by
  rw [nameRejections_eq_nil_iff, List.forall_mem_singleton]
  exact (Identifier.exists_parse_iff column).symm

theorem isSound_iff (k : SortKey) : k.IsSound ↔ k.rejections = [] := by
  have hparts : k.rejections = [] ↔ NameText k.column.toList ∧ IsOneOf directionWords k.direction ∧
      ∀ word, k.nulls = some word → IsOneOf nullsWords word := by
    simp only [rejections, List.append_eq_nil_iff, nameText_iff, isDirection_iff, isNulls_iff,
      List.flatMap_eq_nil_iff, Option.mem_toList, ite_eq_left_iff, List.cons_ne_nil, imp_false,
      not_not, and_assoc]
  rw [hparts]
  constructor
  · intro h
    exact ⟨h.column, h.direction, h.nulls⟩
  · rintro ⟨hcolumn, hdirection, hnulls⟩
    exact ⟨hcolumn, hdirection, hnulls⟩

/-- A key that can not be written is refused for something. -/
theorem exists_refusedFor {k : SortKey} (h : ¬ k.IsSound) : ∃ e, k.RefusedFor e := by
  by_cases hcolumn : NameText k.column.toList
  · by_cases hdirection : IsOneOf directionWords k.direction
    · obtain ⟨word, hword, hnulls⟩ : ∃ word, k.nulls = some word ∧ ¬ IsOneOf nullsWords word := by
        by_contra hall
        push Not at hall
        exact h ⟨hcolumn, hdirection, hall⟩
      exact ⟨_, .nulls hcolumn hdirection hword hnulls⟩
    · exact ⟨_, .direction hcolumn hdirection⟩
  · cases hparse : Identifier.parse k.column with
    | error fault => exact ⟨_, .column hcolumn hparse⟩
    | ok x => exact absurd ((Identifier.exists_parse_iff _).1 ⟨x, hparse⟩) hcolumn

theorem head?_rejections {k : SortKey} {e : Rejection} (h : k.RefusedFor e) :
    k.rejections.head? = some e := by
  rw [rejections, List.append_assoc]
  cases h with
  | column _ hparse => simp [nameRejections, nameFaults, faultOf, hparse]
  | direction hcolumn hdirection =>
    rw [(nameText_iff _).1 hcolumn, if_neg (mt (isDirection_iff _).2 hdirection)]
    rfl
  | nulls hcolumn hdirection hword hnulls =>
    rw [(nameText_iff _).1 hcolumn, if_pos ((isDirection_iff _).1 hdirection), hword,
      Option.toList_some, List.flatMap_singleton, if_neg (mt (isNulls_iff _).2 hnulls)]
    rfl

theorem refusedFor_iff (k : SortKey) (e : Rejection) :
    k.RefusedFor e ↔ k.rejections.head? = some e := by
  refine ⟨head?_rejections, fun hhead => ?_⟩
  have hunsound : ¬ k.IsSound := by
    intro hsound
    simp [(isSound_iff k).1 hsound] at hhead
  obtain ⟨first, hfirst⟩ := exists_refusedFor hunsound
  rwa [← Option.some.inj ((head?_rejections hfirst).symm.trans hhead)]

/-! ## What is written -/

/-- The text of a key: its column, and words of the language in place of those of the key. -/
inductive Written (k : SortKey) : String → Prop where
  | plain {direction : String} : direction ∈ directionWords → SameLetters k.direction direction →
      k.nulls = none → k.Written (k.column ++ " " ++ direction)
  | nulls {direction word place : String} : direction ∈ directionWords →
      SameLetters k.direction direction → k.nulls = some word → place ∈ nullsWords →
      SameLetters word place →
      k.Written (k.column ++ " " ++ direction ++ " NULLS " ++ place)

theorem written_text {k : SortKey} (h : k.IsSound) : k.Written k.text := by
  obtain ⟨direction, hdirection, hsame⟩ := h.direction
  have hupper : upper k.direction = direction :=
    (upper_eq_iff (upper_directionWords _ hdirection) _).2 hsame
  rw [text, hupper]
  cases hnulls : k.nulls with
  | none =>
    rw [Option.elim_none, String.append_empty]
    exact .plain hdirection hsame hnulls
  | some word =>
    obtain ⟨place, hplace, hword⟩ := h.nulls word hnulls
    have hupper : upper word = place :=
      (upper_eq_iff (upper_nullsWords _ hplace) _).2 hword
    rw [Option.elim_some, hupper, ← String.append_assoc]
    exact .nulls hdirection hsame hnulls hplace hword

/-! ## Keys that differ in case -/

/-- The same key, but for the case of the letters of its words. -/
structure SameKey (k other : SortKey) : Prop where
  column : k.column = other.column
  direction : SameLetters k.direction other.direction
  nulls : Option.Rel SameLetters k.nulls other.nulls

/-- One of two words is written the same for whatever cause other words are refused. -/
theorem toOption_word (word first second text other : String) (cause cause' : Rejection) :
    (if word = first then .ok text else if word = second then .ok other
      else .error cause : Except Rejection String).toOption =
      (if word = first then .ok text else if word = second then .ok other
        else .error cause' : Except Rejection String).toOption := by
  by_cases hfirst : word = first
  · simp only [if_pos hfirst]
  · by_cases hsecond : word = second
    · simp only [if_neg hfirst, if_pos hsecond]
    · simp only [if_neg hfirst, if_neg hsecond]
      rfl

theorem toOption_directionText_congr {k other : SortKey}
    (h : SameLetters k.direction other.direction) :
    k.directionText.toOption = other.directionText.toOption := by
  unfold directionText
  rw [(upper_eq_upper_iff _ _).2 h]
  exact toOption_word _ _ _ _ _ _ _

theorem toOption_nullsText_congr {k other : SortKey}
    (h : Option.Rel SameLetters k.nulls other.nulls) :
    k.nullsText.toOption = other.nullsText.toOption := by
  obtain ⟨_, _, nulls⟩ := k
  obtain ⟨_, _, place⟩ := other
  unfold nullsText
  cases h with
  | none => rfl
  | some hsame =>
    dsimp only
    rw [(upper_eq_upper_iff _ _).2 hsame]
    exact toOption_word _ _ _ _ _ _ _

theorem toOption_phrase_congr {k other : SortKey} (h : SameKey k other) :
    (k.phrase : Except Rejection (Phrase α)).toOption = other.phrase.toOption := by
  simp only [phrase, toOption_bind, h.column, toOption_directionText_congr h.direction,
    toOption_nullsText_congr h.nulls]

theorem toOption_clause_congr {keys others : List SortKey} (h : List.Forall₂ SameKey keys others) :
    (clause keys : Except Rejection (Phrase α)).toOption = (clause others).toOption := by
  unfold clause
  cases h with
  | nil => rfl
  | cons hfirst hrest =>
    have hphrases := toOption_mapM_congr (f := phrase (α := α))
      ((List.Forall₂.cons hfirst hrest).imp fun _ _ => toOption_phrase_congr)
    simp only [List.isEmpty_cons, Bool.false_eq_true, if_false, toOption_map, hphrases]

/-! ## The clause -/

/-- The direction that a call sets. -/
def Call.direction? : Call → Option String
  | .direction word => some word
  | .nulls _ => none

/-- The place of nulls that a call sets. -/
def Call.nulls? : Call → Option String
  | .direction _ => none
  | .nulls word => some word

/-- Every call replaces what the calls of its kind before it have set. -/
theorem foldl_apply (calls : List Call) (k : SortKey) : calls.foldl apply k =
    ⟨k.column, (calls.filterMap Call.direction?).getLast?.getD k.direction,
      (calls.filterMap Call.nulls?).getLast?.or k.nulls⟩ := by
  induction calls generalizing k with
  | nil => rfl
  | cons call rest ih =>
    rw [List.foldl_cons, ih]
    cases call <;>
      simp [apply, setDirection, setNulls, Call.direction?, Call.nulls?, List.getLast?_cons]

theorem ofCalls_eq (column : String) (calls : List Call) : ofCalls column calls =
    ⟨column, (calls.filterMap Call.direction?).getLast?.getD ascWord,
      (calls.filterMap Call.nulls?).getLast?⟩ := by
  rw [ofCalls, foldl_apply, asc, Option.or_none]

/-- The clause is refused for the first key that can not be written. -/
theorem clause_eq_error_iff (keys : List SortKey) (e : Rejection) :
    (clause keys : Except Rejection (Phrase α)) = .error e ↔ ∃ before k after,
      keys = before ++ k :: after ∧ (∀ j ∈ before, j.IsSound) ∧ k.RefusedFor e := by
  rw [(reports_clause keys).error_iff, List.head?_flatMap, List.findSome?_eq_some_iff]
  simp only [List.head?_eq_none_iff, ← isSound_iff, ← refusedFor_iff]
  exact exists_congr fun before => exists_congr fun k => exists_congr fun after =>
    and_congr_right fun _ => and_comm

theorem query_clause {keys : List SortKey} (hsound : ∀ k ∈ keys, k.IsSound) {p : Phrase α}
    (h : clause keys = .ok p) : ∃ items, List.Forall₂ Written keys items ∧
      p.query = ⟨if keys = [] then "" else "ORDER BY " ++ ", ".intercalate items, []⟩ := by
  refine ⟨keys.map text, ?_, ?_⟩
  · rw [List.forall₂_map_right_iff, List.forall₂_same]
    exact fun k hk => written_text (hsound k hk)
  · rw [Phrase.query_text, text_clause h, values_clause h, clauseText_eq]

/-- The last direction and the last place of nulls that are set count. The clause is refused for
the first key that can not be written, and for its column before its direction and for this before
its place of nulls. Otherwise the keys stand in order, written with words of the language, and in
whatever case those of the caller are, the clause is the same. -/
theorem clause_words :
    (∀ (column : String) (calls : List Call), ofCalls column calls =
        ⟨column, (calls.filterMap Call.direction?).getLast?.getD ascWord,
          (calls.filterMap Call.nulls?).getLast?⟩) ∧
      ∀ keys : List SortKey,
        ((∃ p : Phrase α, clause keys = .ok p) ↔ ∀ k ∈ keys, k.IsSound) ∧
        (∀ e, (clause keys : Except Rejection (Phrase α)) = .error e ↔ ∃ before k after,
          keys = before ++ k :: after ∧ (∀ j ∈ before, j.IsSound) ∧ k.RefusedFor e) ∧
        (∀ p : Phrase α, clause keys = .ok p → ∃ items, List.Forall₂ Written keys items ∧
          p.query = ⟨if keys = [] then "" else "ORDER BY " ++ ", ".intercalate items, []⟩) ∧
        ∀ others : List SortKey, List.Forall₂ SameKey keys others →
          (clause keys : Except Rejection (Phrase α)).toOption = (clause others).toOption := by
  refine ⟨ofCalls_eq, fun keys => ?_⟩
  have hsound : (∃ p : Phrase α, clause keys = .ok p) ↔ ∀ k ∈ keys, k.IsSound := by
    rw [(reports_clause keys).ok_iff, List.flatMap_eq_nil_iff]
    exact forall₂_congr fun k _ => (isSound_iff k).symm
  exact ⟨hsound, clause_eq_error_iff keys, fun p hp => query_clause (hsound.1 ⟨p, hp⟩) hp,
    fun others => toOption_clause_congr⟩

/-- Keys with words that are set more than once, and in different cases. -/
def filmKeys : List SortKey :=
  [ofCalls "film.title" [.nulls "last", .direction "sideways", .direction "dEsC", .nulls "First"],
    asc "id"]

/-- The same keys in upper case. -/
def plainKeys : List SortKey := [ofCalls "film.title" [.direction "DESC", .nulls "FIRST"], asc "id"]

/-- Keys of which the second has a blank behind its direction, and the third no column. -/
def paddedKeys : List SortKey := [asc "id", ofCalls "title" [.direction "ASC "], desc "1st"]

theorem clause_filmKeys :
    (∃ p : Phrase Empty, clause filmKeys = .ok p ∧ (clause plainKeys).toOption = some p ∧
        p.query = ⟨"ORDER BY film.title DESC NULLS FIRST, id ASC", []⟩ ∧
        ∃ items, List.Forall₂ Written filmKeys items) ∧
      (∀ k ∈ filmKeys, k.IsSound) ∧ List.Forall₂ SameKey filmKeys plainKeys ∧
      ∃ before k after, paddedKeys = before ++ k :: after ∧ (∀ j ∈ before, j.IsSound) ∧
        k.RefusedFor (.sortDirection "ASC " "title") := by
  obtain ⟨-, hclause⟩ := clause_words (α := Empty)
  obtain ⟨hsound, -, hwritten, hsame⟩ := hclause filmKeys
  have hfilm : (clause filmKeys : Except Rejection (Phrase Empty)).map Phrase.query =
      .ok ⟨"ORDER BY film.title DESC NULLS FIRST, id ASC", []⟩ := by decide +kernel
  obtain ⟨p, hp, hquery⟩ := map_eq_ok_iff.1 hfilm
  obtain ⟨items, hitems, -⟩ := hwritten p hp
  have hcase : ∀ s t : String, upper s = upper t → SameLetters s t :=
    fun s t => (upper_eq_upper_iff s t).1
  have hkeys : List.Forall₂ SameKey filmKeys plainKeys :=
    .cons ⟨rfl, hcase _ _ (by decide), .some (hcase _ _ (by decide))⟩
      (.cons ⟨rfl, hcase _ _ rfl, .none⟩ .nil)
  have hpadded : (clause paddedKeys : Except Rejection (Phrase Empty)).map Phrase.query =
      .error (.sortDirection "ASC " "title") := by decide +kernel
  refine ⟨⟨p, hp, ?_, hquery, items, hitems⟩, hsound.1 ⟨p, hp⟩, hkeys, ?_⟩
  · rw [← hsame plainKeys hkeys, hp]
    rfl
  · exact ((hclause paddedKeys).2.1 _).1 (map_eq_error_iff.1 hpadded)

end SortKey

end ParamSql
