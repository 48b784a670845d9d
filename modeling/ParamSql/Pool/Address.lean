import ParamSql.Decimal.Natural
import ParamSql.Pool.IpAddress
import ParamSql.Text.Blank
import ParamSql.Text.Percent

/-!
# Addresses of a server

Where a server is found and how it is asked, as one text: a URL with the scheme `postgres` or
`postgresql`, or pairs `key=value` with blanks between them, a value in apostrophes if it needs
them. `isAddress` says which texts are addresses; an empty one names no server and is none the less
well formed.
-/

namespace ParamSql.Pool.Address

open Decimal Text

/-! ## Parameters -/

/-- What a parameter takes as its value. -/
inductive Kind where
  /-- Any text. -/
  | free
  /-- A whole number of 64 bits with its sign. -/
  | integer
  /-- A whole number below the bound, without a minus sign. -/
  | natural (bound : Nat)
  /-- Socket numbers with commas between them; one that is left out is the usual one. -/
  | sockets
  /-- Network addresses with commas between them. -/
  | addresses
  /-- One of the words. -/
  | choice (words : List String)

/-- Whether the text is the number of a socket, which may be left out. -/
def isSocket (cs : List Char) : Bool := cs.isEmpty || (natural? (twoTo 16) cs).isSome

/-- Whether a parameter of the kind takes the value. -/
def Kind.takes (value : List Char) : Kind → Bool
  | .free => true
  | .integer => isInteger value
  | .natural bound => (natural? bound value).isSome
  | .sockets => (parts ',' value).all isSocket
  | .addresses => (parts ',' value).all IpAddress.isIpAddress
  | .choice words => words.contains (String.ofList value)

/-- The parameter for socket numbers. -/
def socketKey : List Char := ['p', 'o', 'r', 't']

/-- The parameters for the server. -/
def serverKinds : List (String × Kind) :=
  [("user", .free), ("password", .free), ("dbname", .free), ("options", .free),
    ("application_name", .free), ("host", .free), ("hostaddr", .addresses),
    (String.ofList socketKey, .sockets)]

/-- The parameters for the connection. -/
def connectionKinds : List (String × Kind) :=
  [("connect_timeout", .integer), ("tcp_user_timeout", .integer),
    ("keepalives", .natural (twoTo 64)), ("keepalives_idle", .integer),
    ("keepalives_interval", .integer), ("keepalives_retries", .natural (twoTo 32))]

/-- The parameters with a choice of words. -/
def choiceKinds : List (String × Kind) :=
  [("sslmode", .choice ["disable", "prefer", "require"]),
    ("sslnegotiation", .choice ["postgres", "direct"]),
    ("target_session_attrs", .choice ["any", "read-write", "read-only"]),
    ("channel_binding", .choice ["disable", "prefer", "require"]),
    ("load_balance_hosts", .choice ["disable", "random"])]

/-- Whether a parameter is known and takes the value. -/
def isParameter (key value : List Char) : Bool :=
  (serverKinds ++ connectionKinds ++ choiceKinds).any fun (name, kind) =>
    name = String.ofList key && kind.takes value

/-! ## URLs -/

/-- What follows the scheme of a URL, if the text is one. -/
def afterScheme? (cs : List Char) : Option (List Char) :=
  if "postgres://".toList.isPrefixOf cs then some (cs.drop 11)
  else if "postgresql://".toList.isPrefixOf cs then some (cs.drop 13)
  else none

/-- The parts of a URL, each still percent-encoded. -/
structure Url where
  credentials : List Char
  hosts : List Char
  database : List Char
  query : List Char

/-- Takes a URL apart after its scheme. The credentials end at the first `@`, the hosts at a slash
or question mark, and the database at a question mark. -/
def Url.ofText (cs : List Char) : Url :=
  let credentials := if cs.contains '@' then cs.takeWhile (· ≠ '@') else []
  let cs := if cs.contains '@' then (cs.dropWhile (· ≠ '@')).drop 1 else cs
  let hosts := cs.takeWhile fun c => c ≠ '/' && c ≠ '?'
  let path := (cs.drop hosts.length).takeWhile (· ≠ '?')
  let query := (cs.dropWhile (· ≠ '?')).drop 1
  ⟨credentials, hosts, path.drop 1, query⟩

/-- Whether a percent-encoded text says a text. -/
def isText (cs : List Char) : Bool := (Percent.text? cs).isSome

/-- Whether the user that stands before a colon and the password is a text. A password may be any
bytes. -/
def isCredentials (cs : List Char) : Bool := isText (cs.takeWhile (· ≠ ':'))

/-- Whether the text names a host: a path, which may be any bytes, or a text. -/
def isHostName (cs : List Char) : Bool :=
  (Percent.bytes cs).head? = (String.utf8EncodeChar '/').head? || isText cs

/-- Whether the value says what the parameter takes. -/
def isEncodedParameter (key value : List Char) : Bool :=
  match Percent.text? value with
  | some value => isParameter key value
  | none => false

/-- Whether the text is one host with an optional socket number. A host in brackets may hold
colons. -/
def isHost : List Char → Bool
  | '[' :: rest =>
    rest.contains ']' && isHostName (rest.takeWhile (· ≠ ']')) &&
      match (rest.dropWhile (· ≠ ']')).drop 1 with
      | [] => true
      | ':' :: number => isEncodedParameter socketKey number
      | _ => false
  | cs =>
    isHostName (cs.takeWhile (· ≠ ':')) &&
      isEncodedParameter socketKey ((cs.dropWhile (· ≠ ':')).drop 1)

/-- Whether the text is one `key=value` of the query part. -/
def isQueryItem (cs : List Char) : Bool :=
  cs.contains '=' &&
    let value := (cs.dropWhile (· ≠ '=')).drop 1
    match Percent.text? (cs.takeWhile (· ≠ '=')) with
    | some key =>
      if key = "host".toList then isHostName value else isEncodedParameter key value
    | none => false

/-- Whether the text is the query part of a URL, after its question mark. -/
def isQueryPart (cs : List Char) : Bool :=
  let items := parts '&' cs
  let items := if items.getLast? = some [] then items.dropLast else items
  items.all isQueryItem

/-- Whether each part of a URL says what it is to say. -/
def Url.isAddress (url : Url) : Bool :=
  isCredentials url.credentials && (url.hosts.isEmpty || (parts ',' url.hosts).all isHost) &&
    isText url.database && isQueryPart url.query

/-! ## Pairs -/

/-- Reads a value up to a blank; a backslash keeps the character after it. -/
def readPlain : List Char → List Char × List Char
  | [] => ([], [])
  | ['\\'] => ([], [])
  | '\\' :: c :: rest =>
    let (value, rest) := readPlain rest
    (c :: value, rest)
  | c :: rest =>
    if isBlank c then ([], c :: rest)
    else
      let (value, rest) := readPlain rest
      (c :: value, rest)

/-- Reads a value up to an apostrophe, which has to be there. -/
def readQuoted? : List Char → Option (List Char × List Char)
  | [] => none
  | ['\\'] => none
  | '\\' :: c :: rest => (readQuoted? rest).map fun (value, rest) => (c :: value, rest)
  | c :: rest =>
    if c = '\'' then some ([], rest)
    else (readQuoted? rest).map fun (value, rest) => (c :: value, rest)

/-- Reads a value, which is not empty unless it is in apostrophes. -/
def readValue? (cs : List Char) : Option (List Char × List Char) :=
  match cs with
  | '\'' :: rest => readQuoted? rest
  | cs =>
    let (value, rest) := readPlain cs
    if value.isEmpty then none else some (value, rest)

/-- Whether the text is a row of pairs. Each pair has at least one character, so the length of the
text is fuel enough. -/
def isPairs : (fuel : Nat) → List Char → Bool
  | 0, _ => true
  | fuel + 1, cs =>
    let cs := cs.dropWhile isBlank
    let key := cs.takeWhile fun c => !isBlank c && c ≠ '='
    if key.isEmpty then true
    else
      match (cs.drop key.length).dropWhile isBlank with
      | '=' :: rest =>
        match readValue? (rest.dropWhile isBlank) with
        | some (value, rest) => isParameter key value && isPairs fuel rest
        | none => false
      | _ => false

/-- Whether the text is an address. -/
def isAddress (s : String) : Bool :=
  let cs := s.toList
  match afterScheme? cs with
  | some rest => (Url.ofText rest).isAddress
  | none => isPairs (cs.length + 1) cs

end ParamSql.Pool.Address
