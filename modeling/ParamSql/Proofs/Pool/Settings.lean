import ParamSql.Pool.Reader
import ParamSql.Proofs.Json.Fields

/-!
# Settings that are read from a text

An object gives settings if none of the three parts is given twice and each that is given has its
type. What is left out has its default, so the object without fields gives the default settings.

Results:
* `Recycling.ofJson?_eq_some_iff`, `sizeOfJson?_eq_some_iff`: which documents name a test, and which
  are a size.
* `ofJson?_write_eq_some_iff`: which objects give settings, and which settings.
* `build_write_eq_ok_iff`: which objects make a pool.
* `ofEnvironment_eq_ok_iff`: which environments give settings.
-/

namespace ParamSql

open Json

/-- The word for a test. -/
def Recycling.word : Recycling → String
  | .fast => "fast"
  | .verified => "verified"

theorem Recycling.ofJson?_eq_some_iff {json : Json} {r : Recycling} :
    Recycling.ofJson? json = some r ↔
      json = .string (some r.word) ∨ json = .object [(some r.word, .null)] := by
  constructor
  · intro h
    unfold Recycling.ofJson? at h
    split at h <;> cases h
    · exact .inl rfl
    · exact .inl rfl
    · exact .inr rfl
    · exact .inr rfl
  · rintro (rfl | rfl) <;> cases r <;> rfl

namespace PoolSettings

theorem sizeOfJson?_eq_some_iff {json : Json} {n : Nat} :
    sizeOfJson? json = some n ↔ n < sizeBound ∧ json = .number (some (.whole n)) := by
  simp only [sizeOfJson?, Option.bind_eq_some_iff, int?_eq_some_iff]
  constructor
  · rintro ⟨i, rfl, h⟩
    split at h <;> cases h
    rename_i hi
    rw [Int.toNat_of_nonneg hi.1]
    exact ⟨by omega, rfl⟩
  · rintro ⟨hn, rfl⟩
    refine ⟨n, rfl, ?_⟩
    rw [if_pos ⟨Int.natCast_nonneg n, Int.ofNat_lt.2 hn⟩, Int.toNat_natCast]

/-- The fields of an object give the settings. -/
structure Gives (fields : List (Option String × Json)) (s : PoolSettings) : Prop where
  address : Says text? default.address (valuesOf fields "database_url") s.address
  maxSize : Says sizeOfJson? default.maxSize (valuesOf fields "max_size") s.maxSize
  recycling : Says Recycling.ofJson? default.recycling (valuesOf fields "recycling") s.recycling

example : Gives [] default := ⟨.missing, .missing, .missing⟩

theorem ofDocument?_object_eq_some_iff {fields : List (Option String × Json)} {s : PoolSettings} :
    ofDocument? (.object fields) = some s ↔
      (∀ field ∈ fields, field.1 ≠ none) ∧ Gives fields s := by
  simp only [ofDocument?, ofParts?, Option.bind_eq_bind, Option.bind_eq_some_iff]
  constructor
  · rintro ⟨_, ha, _, hm, _, hr, _, ha', _, hm', _, hr', ⟨⟩⟩
    obtain ⟨hnames, haddress⟩ := exists_orDefault?_iff.1 ⟨_, ha, ha'⟩
    exact ⟨hnames, haddress, (exists_orDefault?_iff.1 ⟨_, hm, hm'⟩).2,
      (exists_orDefault?_iff.1 ⟨_, hr, hr'⟩).2⟩
  · rintro ⟨hnames, haddress, hsize, hrecycling⟩
    obtain ⟨_, ha, ha'⟩ := exists_orDefault?_iff.2 ⟨hnames, haddress⟩
    obtain ⟨_, hm, hm'⟩ := exists_orDefault?_iff.2 ⟨hnames, hsize⟩
    obtain ⟨_, hr, hr'⟩ := exists_orDefault?_iff.2 ⟨hnames, hrecycling⟩
    exact ⟨_, ha, _, hm, _, hr, _, ha', _, hm', _, hr', rfl⟩

/-- A text gives the settings that its object gives. -/
theorem ofJson?_write_eq_some_iff {fields : List (String × Document)} {s : PoolSettings} :
    ofJson? (String.ofList (Document.object fields).write) = some s ↔
      Gives (Document.jsonFields fields) s := by
  rw [ofJson?, Document.read?_write, Option.bind_some, Document.json,
    ofDocument?_object_eq_some_iff]
  exact and_iff_right (Document.names_jsonFields fields)

/-- A text makes a pool if it gives settings with a size and an address. -/
theorem build_write_eq_ok_iff {fields : List (String × Document)} {pool : Pool} :
    (∃ s, ofJson? (String.ofList (Document.object fields).write) = some s ∧ s.build = .ok pool) ↔
      ∃ s, Gives (Document.jsonFields fields) s ∧ s.maxSize ≠ 0 ∧
        Pool.Address.isAddress s.address = true ∧ pool = ⟨s.maxSize⟩ := by
  simp only [ofJson?_write_eq_some_iff, build_eq_ok_iff]

/-! ## Settings of an environment -/

/-- The size that an environment gives: the default one if none is set, else the number that is
written, behind a plus sign or not. -/
inductive EnvironmentSize : Option String → Nat → Prop where
  | missing : EnvironmentSize none default.maxSize
  | written {text : String} {digits : List Char}
      (htext : text.toList = digits ∨ text.toList = '+' :: digits) (hne : digits ≠ [])
      (hdigits : ∀ c ∈ digits, c.isDigit = true) (hbound : Decimal.ofDigits digits < sizeBound) :
      EnvironmentSize (some text) (Decimal.ofDigits digits)

/-- An environment gives settings if it has an address, and a size that is a number if it has one.
Whether a server or a connection is there is not looked at. -/
theorem ofEnvironment_eq_ok_iff {address size : Option String} {s : PoolSettings} :
    ofEnvironment address size = .ok s ↔
      ∃ a n, address = some a ∧ EnvironmentSize size n ∧ s = ⟨a, n, default.recycling⟩ := by
  cases address with
  | none => simp [ofEnvironment]
  | some a =>
    cases size with
    | none =>
      constructor
      · rintro ⟨⟩
        exact ⟨a, _, rfl, .missing, rfl⟩
      · rintro ⟨_, _, ⟨⟩, ⟨⟩, rfl⟩
        rfl
    | some text =>
      rw [ofEnvironment]
      constructor
      · intro h
        split at h
        · rename_i n hn
          obtain ⟨digits, htext, hne, hdigits, rfl, hbound⟩ :=
            Decimal.natural?_eq_some_iff.1 hn
          cases h
          exact ⟨a, _, rfl, .written htext hne hdigits hbound, rfl⟩
        · cases h
      · rintro ⟨_, _, ⟨⟩, hsize, rfl⟩
        cases hsize with
        | written htext hne hdigits hbound =>
          rw [Decimal.natural?_eq_some_iff.2 ⟨_, htext, hne, hdigits, rfl, hbound⟩]
          rfl

end PoolSettings

end ParamSql
