import ParamSql.Identifier
import ParamSql.Text.Quoted

/-!
# Reading identifiers

`Identifier.parse` reads `name`, `schema.table`, `"Film"."Title"` and the like in one pass from the
left; the first character that cannot stand where it does decides the fault. `Identifier.quoted`
takes any text as the name of one quoted segment.

Models `Ident.parse` and `Ident.quoted`.

Results:
* `quoted_eq_ok`: any text without NUL, nothing apart, can be quoted.
* `sql_of_parse`: an identifier is written as the text that it was read from.
-/

namespace ParamSql.Identifier

/-- Why a text is no identifier. -/
inductive Fault where
  | empty
  | nul
  | unterminated
  | emptyQuoted
  | badCharacter (c : Char) (input : String)
  | emptySegment (input : String)
  | finalDot (input : String)
  | afterQuoted (c : Char) (input : String)
  | badName (name : String)
  deriving DecidableEq, Repr

/-- The wording of a fault. -/
def Fault.message : Fault → String
  | .empty => "identifier cannot be empty"
  | .nul => "identifier cannot contain a NUL character"
  | .unterminated => "unterminated quoted identifier"
  | .emptyQuoted => "quoted identifier cannot be empty"
  | .badCharacter c input =>
    "invalid character '" ++ c.toString ++ "' in identifier '" ++ input ++ "'"
  | .emptySegment input => "empty segment in identifier '" ++ input ++ "'"
  | .finalDot input => "identifier '" ++ input ++ "' ends with '.'"
  | .afterQuoted c input =>
    "unexpected '" ++ c.toString ++ "' after quoted segment in '" ++ input ++ "'"
  | .badName name => "invalid quoted identifier " ++ Text.Quoted.quote name

/-- Whether the text after an opening quote is a closing one at once. -/
def closesAtOnce : List Char → Bool
  | ['"'] => true
  | '"' :: c :: _ => c ≠ '"'
  | _ => false

mutual

/-- Reads segments where one has to stand: at the start or after a dot. -/
def readSegments (input : String) : List Char → Except Fault (Segment × List Segment)
  | [] => .error (.finalDot input)
  | '"' :: rest =>
    if closesAtOnce rest then .error .emptyQuoted
    else
      match readQuoted input rest with
      | .ok (name, more) => .ok (.quoted (String.ofList name), more)
      | .error fault => .error fault
  | c :: rest =>
    if c = '.' then .error (.emptySegment input)
    else if Segment.isStart c then
      match readPlain input rest with
      | .ok (name, more) => .ok (.plain (String.ofList (c :: name)), more)
      | .error fault => .error fault
    else .error (.badCharacter c input)

/-- Reads the rest of a plain segment, and the segments after it (`parse_plain`). -/
def readPlain (input : String) : List Char → Except Fault (List Char × List Segment)
  | [] => .ok ([], [])
  | '.' :: rest =>
    match readSegments input rest with
    | .ok (s, more) => .ok ([], s :: more)
    | .error fault => .error fault
  | c :: rest =>
    if Segment.isPart c then
      match readPlain input rest with
      | .ok (name, more) => .ok (c :: name, more)
      | .error fault => .error fault
    else .error (.badCharacter c input)

/-- Reads the rest of a quoted segment, and the segments after it (`parse_quoted`). -/
def readQuoted (input : String) : List Char → Except Fault (List Char × List Segment)
  | [] => .error .unterminated
  | '"' :: '"' :: rest =>
    match readQuoted input rest with
    | .ok (name, more) => .ok ('"' :: name, more)
    | .error fault => .error fault
  | '"' :: rest =>
    match readAfterQuote input rest with
    | .ok more => .ok ([], more)
    | .error fault => .error fault
  | c :: rest =>
    match readQuoted input rest with
    | .ok (name, more) => .ok (c :: name, more)
    | .error fault => .error fault

/-- Reads the segments after a closing quote. -/
def readAfterQuote (input : String) : List Char → Except Fault (List Segment)
  | [] => .ok []
  | '.' :: rest =>
    match readSegments input rest with
    | .ok (s, more) => .ok (s :: more)
    | .error fault => .error fault
  | c :: _ => .error (.afterQuoted c input)

end

/-! What each reader finds is written as the text that it read, and can be written down. -/

mutual

theorem readSegments_ok (input : String) : ∀ (cs : List Char) {s : Segment}
    {more : List Segment}, readSegments input cs = .ok (s, more) →
      s.chars ++ Segment.dotted more = cs ∧ ('\x00' ∉ cs → ∀ t ∈ s :: more, t.isValid = true) := by
  intro cs s more h
  unfold readSegments at h
  split at h
  · simp at h
  · rename_i rest
    split at h
    · simp at h
    · rename_i hclose
      split at h
      · rename_i name segs hq
        obtain ⟨rfl, rfl⟩ := by simpa using h
        obtain ⟨hchars, hn, hvalid⟩ := readQuoted_ok input rest hq
        refine ⟨by simp [Segment.chars, hchars], fun h0 => ?_⟩
        obtain ⟨hname, hsegs⟩ := hvalid (List.not_mem_of_not_mem_cons h0)
        have hne : name ≠ [] := fun e => hclose (hn e)
        exact List.forall_mem_cons.2 ⟨by simp [hne, hname], hsegs⟩
      · simp at h
  · rename_i c rest _
    split at h
    · simp at h
    split at h
    · rename_i hstart
      split at h
      · rename_i name segs hp
        obtain ⟨rfl, rfl⟩ := by simpa using h
        obtain ⟨hchars, hname, hvalid⟩ := readPlain_ok input rest hp
        refine ⟨by simp [Segment.chars, hchars], fun h0 => ?_⟩
        exact List.forall_mem_cons.2 ⟨by simp [Segment.isPlain, hstart, hname],
          hvalid (List.not_mem_of_not_mem_cons h0)⟩
      · simp at h
    · simp at h

theorem readPlain_ok (input : String) : ∀ (cs : List Char) {name : List Char}
    {more : List Segment}, readPlain input cs = .ok (name, more) →
      name ++ Segment.dotted more = cs ∧ name.all Segment.isPart = true ∧
        ('\x00' ∉ cs → ∀ t ∈ more, t.isValid = true) := by
  intro cs name more h
  unfold readPlain at h
  split at h
  · obtain ⟨rfl, rfl⟩ := by simpa using h
    exact ⟨rfl, rfl, by simp⟩
  · rename_i rest
    split at h
    · rename_i s segs hs
      obtain ⟨rfl, rfl⟩ := by simpa using h
      obtain ⟨hchars, hvalid⟩ := readSegments_ok input rest hs
      exact ⟨congrArg ('.' :: ·) hchars, rfl,
        fun h0 => hvalid (List.not_mem_of_not_mem_cons h0)⟩
    · simp at h
  · rename_i c rest _
    split at h
    · rename_i hpart
      split at h
      · rename_i name segs hp
        obtain ⟨rfl, rfl⟩ := by simpa using h
        obtain ⟨hchars, hname, hvalid⟩ := readPlain_ok input rest hp
        exact ⟨congrArg (c :: ·) hchars, by simp [hpart, hname],
          fun h0 => hvalid (List.not_mem_of_not_mem_cons h0)⟩
      · simp at h
    · simp at h

theorem readQuoted_ok (input : String) : ∀ (cs : List Char) {name : List Char}
    {more : List Segment}, readQuoted input cs = .ok (name, more) →
      Segment.double name ++ '"' :: Segment.dotted more = cs ∧
        (name = [] → closesAtOnce cs = true) ∧
        ('\x00' ∉ cs → '\x00' ∉ name ∧ ∀ t ∈ more, t.isValid = true) := by
  intro cs name more h
  unfold readQuoted at h
  split at h
  · simp at h
  · rename_i rest
    split at h
    · rename_i name segs hq
      obtain ⟨rfl, rfl⟩ := by simpa using h
      obtain ⟨hchars, -, hvalid⟩ := readQuoted_ok input rest hq
      refine ⟨by simp [Segment.double, hchars], by simp, fun h0 => ?_⟩
      obtain ⟨hname, hsegs⟩ := hvalid fun h => h0 (by simp [h])
      exact ⟨by simp [hname], hsegs⟩
    · simp at h
  · rename_i rest hnext
    split at h
    · rename_i segs hq
      obtain ⟨rfl, rfl⟩ := by simpa using h
      obtain ⟨hchars, hvalid⟩ := readAfterQuote_ok input rest hq
      refine ⟨by simp [Segment.double, hchars], fun _ => ?_,
        fun h0 => ⟨by simp, hvalid (List.not_mem_of_not_mem_cons h0)⟩⟩
      cases rest with
      | nil => rfl
      | cons d rest =>
        have hd : d ≠ '"' := fun e => hnext rest (by rw [e])
        simp [closesAtOnce, hd]
    · simp at h
  · rename_i c rest _ hclosing
    split at h
    · rename_i name segs hq
      obtain ⟨rfl, rfl⟩ := by simpa using h
      obtain ⟨hchars, -, hvalid⟩ := readQuoted_ok input rest hq
      have hc : c ≠ '"' := by
        rintro rfl
        exact hclosing rfl
      refine ⟨by simp [Segment.double, hchars, hc], by simp, fun h0 => ?_⟩
      obtain ⟨hname, hsegs⟩ := hvalid (List.not_mem_of_not_mem_cons h0)
      exact ⟨List.not_mem_cons_of_ne_of_not_mem (List.ne_of_not_mem_cons h0) hname, hsegs⟩
    · simp at h

theorem readAfterQuote_ok (input : String) : ∀ (cs : List Char) {more : List Segment},
    readAfterQuote input cs = .ok more →
      Segment.dotted more = cs ∧ ('\x00' ∉ cs → ∀ t ∈ more, t.isValid = true) := by
  intro cs more h
  unfold readAfterQuote at h
  split at h
  · obtain rfl := by simpa using h
    exact ⟨rfl, by simp⟩
  · rename_i rest
    split at h
    · rename_i s segs hs
      obtain rfl := by simpa using h
      obtain ⟨hchars, hvalid⟩ := readSegments_ok input rest hs
      exact ⟨congrArg ('.' :: ·) hchars, fun h0 => hvalid (List.not_mem_of_not_mem_cons h0)⟩
    · simp at h
  · simp at h

end

theorem readSegments_valid (input : String) (cs : List Char) {s : Segment} {more : List Segment}
    (h : readSegments input cs = .ok (s, more)) (h0 : '\x00' ∉ cs) :
    ∀ t ∈ s :: more, t.isValid = true := (readSegments_ok input cs h).2 h0

/-- Reads an identifier (`Ident.parse`). -/
def parse (input : String) : Except Fault Identifier :=
  let cs := input.toList
  if cs = [] then .error .empty
  else if h0 : '\x00' ∈ cs then .error .nul
  else
    match h : readSegments input cs with
    | .ok (head, tail) => .ok ⟨head, tail, readSegments_valid input cs h h0⟩
    | .error fault => .error fault

/-- One quoted segment with this name, whatever its characters (`Ident.quoted`). -/
def quoted (name : String) : Except Fault Identifier :=
  if h : name.toList ≠ [] ∧ '\x00' ∉ name.toList then
    .ok (ofSegment (.quoted name) ((Segment.isValid_quoted name).2 h))
  else .error (.badName name)

/-- An identifier is written as the text that it was read from. -/
theorem sql_of_parse {input : String} {x : Identifier} (h : parse input = .ok x) :
    x.sql = input := by
  simp only [parse] at h
  split at h
  · simp at h
  split at h
  · simp at h
  split at h
  · rename_i head tail hread
    obtain rfl := by simpa using h
    obtain ⟨hchars, -⟩ := readSegments_ok input _ hread
    simp [sql, chars, hchars]
  · simp at h

theorem quoted_eq_ok {name : String} (h : name.toList ≠ []) (h0 : '\x00' ∉ name.toList) :
    quoted name = .ok (ofSegment (.quoted name) ((Segment.isValid_quoted name).2 ⟨h, h0⟩)) :=
  dif_pos ⟨h, h0⟩

end ParamSql.Identifier
