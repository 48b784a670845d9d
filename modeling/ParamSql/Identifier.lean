/-!
# SQL identifiers

An identifier is one segment or several, qualifiers first. A plain segment is written as it is, a
quoted one in double quotes with every quote inside doubled, and dots stand between segments.
Every segment of an identifier can be written down: a plain one has the form of a name, and a
quoted one names something and has no NUL.

Models `Ident`, its `Segment`s and `Ident.to_sql`.

Results:
* `base_valid`, `last_last`, `name_last`, `isQualified_last`: the last segment on its own is an
  unqualified identifier of the same name.
* `chars_ne_nil`: an identifier is never written as nothing.
-/

namespace ParamSql

/-- One segment of an identifier (`Segment`). The text of a quoted segment is kept without its
quotes. -/
inductive Segment where
  | plain (name : String)
  | quoted (name : String)
  deriving DecidableEq, Repr

namespace Segment

/-- Writes every double quote twice. -/
def double : List Char → List Char
  | [] => []
  | c :: rest => if c = '"' then '"' :: '"' :: double rest else c :: double rest

/-- The segment as SQL (`Segment.write_sql`). -/
def chars : Segment → List Char
  | .plain name => name.toList
  | .quoted name => '"' :: (double name.toList ++ ['"'])

/-- Segments as SQL, each behind a dot. -/
def dotted (segments : List Segment) : List Char := segments.flatMap fun s => '.' :: s.chars

/-- The text that the segment names. -/
def name : Segment → String
  | .plain name => name
  | .quoted name => name

/-- The characters that a plain segment may start with. -/
def isStart (c : Char) : Bool :=
  c = '_' || c.isAlpha

/-- The characters that may follow in a plain segment. -/
def isPart (c : Char) : Bool :=
  c = '_' || c = '$' || c.isAlphanum

/-- Whether a text has the form of a plain segment. -/
def isPlain : List Char → Bool
  | [] => false
  | c :: rest => isStart c && rest.all isPart

/-- Whether the segment can stand in an identifier. -/
def isValid : Segment → Bool
  | .plain name => isPlain name.toList
  | .quoted name => name.toList ≠ [] && '\x00' ∉ name.toList

theorem isPart_of_isStart {c : Char} (h : isStart c = true) : isPart c = true := by
  simp only [isStart, isPart, Char.isAlphanum, Bool.or_eq_true] at h ⊢
  rcases h with h | h <;> simp [h]

theorem all_isPart {cs : List Char} (h : isPlain cs = true) : ∀ c ∈ cs, isPart c = true := by
  cases cs with
  | nil => simp
  | cons c rest =>
    simp only [isPlain, Bool.and_eq_true, List.all_eq_true] at h
    exact List.forall_mem_cons.2 ⟨isPart_of_isStart h.1, h.2⟩

@[simp] theorem isValid_plain (name : String) :
    (plain name).isValid = isPlain name.toList := rfl

@[simp] theorem isValid_quoted (name : String) :
    (quoted name).isValid = true ↔ name.toList ≠ [] ∧ '\x00' ∉ name.toList := by
  simp [isValid]

theorem chars_ne_nil {s : Segment} (h : s.isValid = true) : s.chars ≠ [] := by
  cases s with
  | plain name =>
    intro e
    simp only [chars] at e
    simp [e, isPlain] at h
  | quoted name => simp [chars]

end Segment

/-- An identifier: its segments, of which there is at least one (`Ident`). -/
structure Identifier where
  head : Segment
  tail : List Segment
  valid : ∀ s ∈ head :: tail, s.isValid = true
  deriving DecidableEq, Repr

namespace Identifier

/-- An unqualified identifier. -/
def ofSegment (s : Segment) (h : s.isValid = true) : Identifier := ⟨s, [], by simpa using h⟩

/-- The segments, qualifiers first. -/
def segments (x : Identifier) : List Segment := x.head :: x.tail

/-- The segment that names the thing itself. -/
def base (x : Identifier) : Segment := x.segments.getLast (by simp [segments])

theorem base_mem (x : Identifier) : x.base ∈ x.segments := List.getLast_mem _

theorem base_valid (x : Identifier) : x.base.isValid = true := x.valid _ x.base_mem

/-- The last segment on its own (`Ident.last`). -/
def last (x : Identifier) : Identifier := ofSegment x.base x.base_valid

/-- The text that the last segment names (`Ident.name`). -/
def name (x : Identifier) : String := x.base.name

/-- Whether there are qualifiers (`Ident.is_qualified`). -/
def isQualified (x : Identifier) : Bool := !x.tail.isEmpty

/-- The characters of the identifier as SQL. -/
def chars (x : Identifier) : List Char := x.head.chars ++ Segment.dotted x.tail

/-- The identifier as SQL (`Ident.to_sql`). -/
def sql (x : Identifier) : String := String.ofList x.chars

@[simp] theorem last_last (x : Identifier) : x.last.last = x.last := rfl

@[simp] theorem name_last (x : Identifier) : x.last.name = x.name := rfl

@[simp] theorem isQualified_last (x : Identifier) : x.last.isQualified = false := rfl

@[simp] theorem chars_ofSegment (s : Segment) (h : s.isValid = true) :
    (ofSegment s h).chars = s.chars := by
  simp [chars, ofSegment, Segment.dotted]

theorem chars_ne_nil (x : Identifier) : x.chars ≠ [] := by
  have h := Segment.chars_ne_nil (x.valid x.head (by simp))
  simp [chars, h]

end Identifier

end ParamSql
