import ParamSql.Identifier

/-!
# Phrases of SQL

A `Phrase` is a piece of SQL under construction: text, identifiers, bound values, and sequences of
phrases with a separator. `Phrase.query` writes it out from left to right in one pass and numbers
the bound values `$1`, `$2`, … as it meets them, so that no phrase needs to know how many values
stand before it.

Models `Fragment` and its `CompiledSql`.

Results:
* `isEmpty_parens`: a group in parentheses always has text.
* `values_bind`: a bound value becomes the last one.
-/

namespace ParamSql

variable {α : Type}

/-- SQL text with placeholders, and the values that they stand for in order (`CompiledSql`). -/
structure Query (α : Type) where
  sql : String
  values : List α
  deriving DecidableEq, Repr

namespace Query

/-- The query without text and values. -/
def empty : Query α := ⟨"", []⟩

/-- Adds text at the end. -/
def append (q : Query α) (text : String) : Query α := { q with sql := q.sql ++ text }

/-- Adds a placeholder at the end and binds a value to it (`ParamList.push`). -/
def bind (q : Query α) (value : α) : Query α :=
  ⟨q.sql ++ "$" ++ toString (q.values.length + 1), q.values ++ [value]⟩

@[simp] theorem values_append (q : Query α) (text : String) :
    (q.append text).values = q.values := rfl

@[simp] theorem values_bind (q : Query α) (value : α) :
    (q.bind value).values = q.values ++ [value] := rfl

end Query

/-- A piece of SQL (`Fragment`). -/
inductive Phrase (α : Type) where
  /-- Words and punctuation of the language. -/
  | keyword (text : String)
  /-- Text of the caller's, written as it is. -/
  | raw (text : String)
  /-- An identifier. -/
  | name (x : Identifier)
  /-- A bound value. -/
  | value (v : α)
  /-- Phrases with a separator; those without text are left out, together with a separator. -/
  | seq (separator : String) (items : List (Phrase α))

namespace Phrase

/-! ## Construction -/

/-- The phrase without text (`Fragment.empty`). -/
def empty : Phrase α := .keyword ""

/-- Phrases one directly after the other (`Fragment.concat`). -/
def concat (items : List (Phrase α)) : Phrase α := .seq "" items

/-- Phrases with single spaces. -/
def spaced (items : List (Phrase α)) : Phrase α := .seq " " items

/-- Phrases in a list with commas. -/
def listed (items : List (Phrase α)) : Phrase α := .seq ", " items

/-- A phrase in parentheses (`Fragment.parens`). -/
def parens (inner : Phrase α) : Phrase α := .concat [.keyword "(", inner, .keyword ")"]

/-! ## Writing -/

mutual

/-- Whether the phrase has no text (`Fragment.is_empty`). -/
def isEmpty : Phrase α → Bool
  | .keyword text => text.isEmpty
  | .raw text => text.isEmpty
  | .name _ => false
  | .value _ => false
  | .seq _ items => allEmpty items

/-- Whether none of the phrases has text. -/
def allEmpty : List (Phrase α) → Bool
  | [] => true
  | item :: rest => isEmpty item && allEmpty rest

end

mutual

/-- Writes the phrase after a query (`Fragment.write_into`). -/
def write : Phrase α → Query α → Query α
  | .keyword text, q => q.append text
  | .raw text, q => q.append text
  | .name x, q => q.append x.sql
  | .value v, q => q.bind v
  | .seq separator items, q => writeItems separator true items q

/-- Writes phrases with a separator after a query; `first` says that none is written yet. -/
def writeItems (separator : String) : Bool → List (Phrase α) → Query α → Query α
  | _, [], q => q
  | first, item :: rest, q =>
    if isEmpty item then writeItems separator first rest q
    else
      let q := if first then q else q.append separator
      writeItems separator false rest (write item q)

end

/-- The phrase as a query of its own (`Fragment.serialize`). -/
def query (p : Phrase α) : Query α := p.write .empty

/-! ## Clauses -/

/-- The phrase behind a keyword, or nothing if it has no text. -/
def ledBy (keyword : String) (body : Phrase α) : Phrase α :=
  if body.isEmpty then .empty else .concat [.keyword keyword, body]

@[simp] theorem isEmpty_empty : (empty : Phrase α).isEmpty = true := rfl

@[simp] theorem isEmpty_parens (inner : Phrase α) : (parens inner).isEmpty = false := rfl

@[simp] theorem query_keyword (text : String) : (Phrase.keyword text : Phrase α).query =
    ⟨text, []⟩ := by
  simp [query, write, Query.append, Query.empty]

end Phrase

end ParamSql
