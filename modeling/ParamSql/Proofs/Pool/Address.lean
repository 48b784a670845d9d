import Mathlib.Data.List.TakeWhile
import ParamSql.Pool.Address

/-!
# Addresses that are written

An address can be written as pairs with every value in apostrophes, or as a URL. Whatever texts the
values are, the pairs are an address exactly if each is a parameter that takes its value; and the
URL of a user, a host, a socket number and a database is one exactly if the number is one.

Results:
* `readQuoted?_escape`: a value in apostrophes is read back.
* `isAddress_writePairs_iff`: which pairs are an address.
* `isAddress_writeUrl_iff`: which plain URLs are an address.
-/

namespace ParamSql.Pool.Address

open Decimal Text

/-! ## Pairs -/

/-- A character in apostrophes. -/
def escape (c : Char) : List Char := if c = '\'' ∨ c = '\\' then ['\\', c] else [c]

/-- A key and its value in apostrophes. -/
def writePair (key value : List Char) : List Char :=
  key ++ '=' :: '\'' :: (value.flatMap escape ++ ['\''])

/-- Pairs with a blank behind each. -/
def writePairs : List (List Char × List Char) → List Char
  | [] => []
  | (key, value) :: rest => writePair key value ++ ' ' :: writePairs rest

/-- A text that can stand for a key. -/
structure IsKey (key : List Char) : Prop where
  ne_nil : key ≠ []
  plain : ∀ c ∈ key, isBlank c = false ∧ c ≠ '=' ∧ c ≠ '/'

theorem readQuoted?_escape (value rest : List Char) :
    readQuoted? (value.flatMap escape ++ '\'' :: rest) = some (value, rest) := by
  induction value with
  | nil => simp [readQuoted?]
  | cons c value ih =>
    rw [List.flatMap_cons, List.append_assoc, escape]
    split
    · rename_i h
      rcases h with rfl | rfl <;> simp [readQuoted?, ih]
    · rename_i h
      rw [not_or] at h
      simp [readQuoted?, ih, h]

/-- A pair in front is read, whatever follows. -/
theorem isPairs_writePair {key : List Char} (h : IsKey key) (value rest : List Char) (fuel : Nat) :
    isPairs (fuel + 1) (writePair key value ++ rest) =
      (isParameter key value && isPairs fuel rest) := by
  have hpair : writePair key value ++ rest =
      key ++ '=' :: '\'' :: (value.flatMap escape ++ '\'' :: rest) := by
    simp [writePair]
  have hfront : (key ++ '=' :: '\'' :: (value.flatMap escape ++ '\'' :: rest)).dropWhile isBlank =
      key ++ '=' :: '\'' :: (value.flatMap escape ++ '\'' :: rest) := by
    obtain ⟨c, cs, rfl⟩ := List.exists_cons_of_ne_nil h.ne_nil
    exact dropWhile_eq_self (by simpa using (h.plain c List.mem_cons_self).1)
  have hkey : (key ++ '=' :: '\'' :: (value.flatMap escape ++ '\'' :: rest)).takeWhile
      (fun c => !isBlank c && c ≠ '=') = key := by
    exact takeWhile_front (fun c hc => by simp [h.plain c hc]) (by simp)
  have hnonempty : key.isEmpty = false := by simp [h.ne_nil]
  rw [hpair, isPairs]
  have hequals : isBlank '=' = false := by decide
  have hquote : isBlank '\'' = false := by decide
  simp only [hfront, hkey, hnonempty, List.drop_left, List.dropWhile_cons, hequals, hquote,
    readValue?, readQuoted?_escape, Bool.false_eq_true, if_false]

@[simp]
theorem isPairs_blank (fuel : Nat) (cs : List Char) :
    isPairs fuel (' ' :: cs) = isPairs fuel cs := by
  cases fuel with
  | zero => rfl
  | succ fuel =>
    rw [isPairs, isPairs, List.dropWhile_cons_of_pos (by decide)]

theorem isPairs_writePairs {pairs : List (List Char × List Char)}
    (h : ∀ pair ∈ pairs, IsKey pair.1) {fuel : Nat} (hfuel : pairs.length < fuel) :
    isPairs fuel (writePairs pairs) = pairs.all fun pair => isParameter pair.1 pair.2 := by
  induction pairs generalizing fuel with
  | nil =>
    obtain ⟨fuel, rfl⟩ := Nat.exists_eq_add_of_lt hfuel
    rfl
  | cons pair pairs ih =>
    obtain ⟨fuel, rfl⟩ := Nat.exists_eq_add_of_lt (Nat.zero_lt_of_lt hfuel)
    rw [writePairs, isPairs_writePair (h _ List.mem_cons_self), isPairs_blank,
      ih (fun pair hpair => h pair (List.mem_cons_of_mem _ hpair)) (by simp at hfuel; omega)]
    rfl

theorem prefix_of_prefix_append {front cs rest : List Char} {c : Char} (hc : c ∉ front)
    (h : front <+: cs ++ c :: rest) : front <+: cs := by
  rcases List.prefix_or_prefix_of_prefix h (List.prefix_append cs _) with hfront | ⟨tail, rfl⟩
  · exact hfront
  · rw [List.prefix_append_right_inj] at h
    cases tail with
    | nil => simp
    | cons d tail =>
      rw [List.cons_prefix_cons] at h
      simp [h.1] at hc

/-- A scheme is not the front of a pair, since its slashes would be in the key. -/
theorem afterScheme?_writePairs {pairs : List (List Char × List Char)}
    (h : ∀ pair ∈ pairs, IsKey pair.1) : afterScheme? (writePairs pairs) = none := by
  have hscheme : ∀ scheme : List Char, '/' ∈ scheme → '=' ∉ scheme →
      scheme.isPrefixOf (writePairs pairs) = false := by
    intro scheme hslash hequals
    rw [Bool.eq_false_iff, ne_eq, List.isPrefixOf_iff_prefix]
    intro hfront
    cases pairs with
    | nil => simp [List.prefix_nil.1 hfront] at hslash
    | cons pair pairs =>
      rw [writePairs, writePair, List.append_assoc, List.cons_append] at hfront
      have hkey := (prefix_of_prefix_append hequals hfront).subset hslash
      exact ((h pair List.mem_cons_self).plain _ hkey).2.2 rfl
  rw [afterScheme?, hscheme _ (by decide) (by decide), hscheme _ (by decide) (by decide)]
  rfl

theorem length_le_writePairs (pairs : List (List Char × List Char)) :
    pairs.length ≤ (writePairs pairs).length := by
  induction pairs with
  | nil => exact Nat.le_refl _
  | cons pair pairs ih => simp [writePairs, writePair]; omega

theorem isAddress_writePairs_iff {pairs : List (List Char × List Char)}
    (h : ∀ pair ∈ pairs, IsKey pair.1) :
    isAddress (String.ofList (writePairs pairs)) = true ↔
      ∀ pair ∈ pairs, isParameter pair.1 pair.2 = true := by
  have hfuel : pairs.length < (writePairs pairs).length + 1 :=
    Nat.lt_succ_of_le (length_le_writePairs pairs)
  rw [isAddress]
  simp only [String.toList_ofList, afterScheme?_writePairs h, isPairs_writePairs h hfuel,
    List.all_eq_true]

/-! ## URLs -/

/-- A text that stands for itself wherever it stands in a URL. -/
structure IsPart (cs : List Char) : Prop where
  atSign : '@' ∉ cs
  slash : '/' ∉ cs
  question : '?' ∉ cs
  colon : ':' ∉ cs
  comma : ',' ∉ cs
  percent : '%' ∉ cs
  bracket : '[' ∉ cs

/-- The URL of a user, a host, a socket number and a database. -/
def writeUrl (user host number database : List Char) : List Char :=
  "postgres://".toList ++ (user ++ '@' :: (host ++ ':' :: number ++ '/' :: database))

theorem IsPart.isText {cs : List Char} (h : IsPart cs) : isText cs = true := by
  rw [Address.isText, Percent.text?_of_notMem h.percent]
  rfl

theorem ne_of_notMem {c : Char} {cs : List Char} (h : c ∉ cs) : ∀ d ∈ cs, d ≠ c :=
  fun _ hd => ne_of_mem_of_not_mem hd h

theorem takeWhile_ne_append {c : Char} {cs : List Char} (h : c ∉ cs) (rest : List Char) :
    (cs ++ c :: rest).takeWhile (· ≠ c) = cs :=
  takeWhile_front (by simpa using ne_of_notMem h) (by simp)

theorem dropWhile_ne_append {c : Char} {cs : List Char} (h : c ∉ cs) (rest : List Char) :
    (cs ++ c :: rest).dropWhile (· ≠ c) = c :: rest :=
  dropWhile_front (by simpa using ne_of_notMem h) (by simp)

theorem takeWhile_ne {c : Char} {cs : List Char} (h : c ∉ cs) : cs.takeWhile (· ≠ c) = cs :=
  List.takeWhile_eq_self_iff.2 (by simpa using ne_of_notMem h)

theorem dropWhile_ne {c : Char} {cs : List Char} (h : c ∉ cs) : cs.dropWhile (· ≠ c) = [] :=
  List.dropWhile_eq_nil_iff.2 (by simpa using ne_of_notMem h)

theorem afterScheme?_append (cs : List Char) :
    afterScheme? ("postgres://".toList ++ cs) = some cs := by
  have hlength : "postgres://".toList.length = 11 := by decide
  have hfront : "postgres://".toList.isPrefixOf ("postgres://".toList ++ cs) = true :=
    List.isPrefixOf_iff_prefix.2 (List.prefix_append "postgres://".toList cs)
  unfold afterScheme?
  rw [if_pos hfront, List.drop_left' hlength]

theorem isParameter_socketKey (value : List Char) :
    isParameter socketKey value = (parts ',' value).all isSocket := by
  simp [isParameter, serverKinds, connectionKinds, choiceKinds, socketKey, Kind.takes]

section

variable {user host number database : List Char} (huser : IsPart user) (hhost : IsPart host)
  (hnumber : IsPart number) (hdatabase : IsPart database)

include huser hhost hnumber hdatabase

/-- A URL is taken apart at its separators. -/
theorem ofText_writeUrl :
    Url.ofText (user ++ '@' :: (host ++ ':' :: number ++ '/' :: database)) =
      ⟨user, host ++ ':' :: number, database, []⟩ := by
  have hat : (user ++ '@' :: (host ++ ':' :: number ++ '/' :: database)).contains '@' = true := by
    simp
  have hhosts : (host ++ ':' :: number ++ '/' :: database).takeWhile
      (fun c => c ≠ '/' && c ≠ '?') = host ++ ':' :: number := by
    refine takeWhile_front ?_ (by simp)
    simp only [List.mem_append, List.mem_cons]
    rintro c (hc | rfl | hc)
    · simp [ne_of_notMem hhost.slash c hc, ne_of_notMem hhost.question c hc]
    · rfl
    · simp [ne_of_notMem hnumber.slash c hc, ne_of_notMem hnumber.question c hc]
  have hquestion : '?' ∉ host ++ ':' :: number ++ '/' :: database := by
    simp [hhost.question, hnumber.question, hdatabase.question]
  have hpath : '?' ∉ '/' :: database := by
    simp [hdatabase.question]
  rw [Url.ofText]
  simp only [hat, if_true, takeWhile_ne_append huser.atSign, dropWhile_ne_append huser.atSign,
    List.drop_one, List.tail_cons, hhosts, List.drop_left, dropWhile_ne hquestion,
    takeWhile_ne hpath, List.tail_nil]

omit huser hdatabase in
theorem isHost_writeUrl : isHost (host ++ ':' :: number) = isSocket number := by
  have hfront : ∀ rest, host ++ ':' :: number ≠ '[' :: rest := by
    intro rest hrest
    cases host with
    | nil => simp at hrest
    | cons c host => exact hhost.bracket (by simp [(List.cons.inj hrest).1])
  rw [isHost]
  · rw [takeWhile_ne_append hhost.colon, dropWhile_ne_append hhost.colon, List.drop_one,
      List.tail_cons, isHostName, hhost.isText, Bool.or_true, Bool.true_and, isEncodedParameter,
      Percent.text?_of_notMem hnumber.percent]
    simp [isParameter_socketKey, parts_of_notMem hnumber.comma]
  · exact hfront

/-- A URL of plain parts is an address if its socket number is one. -/
theorem isAddress_writeUrl_iff :
    isAddress (String.ofList (writeUrl user host number database)) = true ↔
      isSocket number = true := by
  have hscheme : afterScheme? (writeUrl user host number database) =
      some (user ++ '@' :: (host ++ ':' :: number ++ '/' :: database)) :=
    afterScheme?_append _
  have hhosts : parts ',' (host ++ ':' :: number) = [host ++ ':' :: number] :=
    parts_of_notMem (by simp [hhost.comma, hnumber.comma])
  have hcredentials : isCredentials user = true := by
    rw [isCredentials, takeWhile_ne huser.colon, huser.isText]
  have hnonempty : (host ++ ':' :: number).isEmpty = false := by simp
  have hquery : isQueryPart [] = true := by decide
  rw [isAddress]
  simp only [String.toList_ofList, hscheme, ofText_writeUrl huser hhost hnumber hdatabase,
    Url.isAddress, hcredentials, hdatabase.isText, hhosts, List.all_cons, List.all_nil, hnonempty,
    isHost_writeUrl hhost hnumber, hquery, Bool.true_and, Bool.and_true, Bool.false_or]

end

end ParamSql.Pool.Address
