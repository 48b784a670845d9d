import ParamSql.Identifier.Parser

/-!
# Errors

What can go wrong, by cause, and the wording of each in one place. A statement is rejected before
anything is sent (`Rejection`); a server refuses it (`ServerFault`); a row does not hold what is
read from it (`DecodeFault`); a pool cannot be set up or give out a connection.

A fault found while a statement is put together is recorded (`BuildFault`) and reported when it
compiles; a recorded identifier fault carries the prefix of rejections already, so that its wording
has the prefix twice.

Models `StmtError`.
-/

namespace ParamSql

/-- A fault recorded while a statement or predicate is put together (`Predicate.build_error`). -/
inductive BuildFault where
  | identifier (fault : Identifier.Fault)
  | templateArity (sql : String) (placeholders given : Nat)
  deriving DecidableEq, Repr

/-- Why a statement is rejected before anything is sent (`StmtError.Validation`). -/
inductive Rejection where
  /-- A name given as text is no identifier. -/
  | identifier (fault : Identifier.Fault)
  /-- The first fault recorded while building. -/
  | recorded (fault : BuildFault)
  | sortDirection (direction column : String)
  | sortNulls (nulls column : String)
  /-- An UPDATE or DELETE without conditions. -/
  | noConditions
  | noRows
  | noColumns
  | repeatedColumn (name : String)
  /-- The row of this number, from one, sets other columns than the first. -/
  | rowShape (number : Nat)
  | noAssignments
  | noTargetColumns
  | constraintName (fault : Identifier.Fault)
  | constraintFilter
  | noUpdateColumns
  | noUpdateValues
  | unknownTable (table : String)
  | unknownColumn (column schema table : String)
  | unknownConstraint (name schema table : String)
  | badCatalog
  /-- A rejection in a caller's words. -/
  | other (text : String)
  deriving DecidableEq, Repr

/-- How a server reports an error of its own: state code, and the constraint involved. -/
structure ServerReport where
  code : String
  constraint : Option String
  deriving DecidableEq, Repr

/-- Why a submitted statement failed (`StmtError.Execution`). -/
inductive ServerFault where
  | reported (report : ServerReport)
  | parameterCount (expected actual : Nat)
  | closed
  deriving DecidableEq, Repr

/-- Why a value cannot be read from a row (`StmtError.Decode`). -/
inductive DecodeFault where
  | noColumn (name : String)
  | mismatch (index : Nat)
  /-- A fault in a caller's words. -/
  | other (text : String)
  deriving DecidableEq, Repr

/-- Why there is no connection (`StmtError.Connection`). -/
inductive ConnectionFault where
  | noAddress
  | badAddress
  | badPoolSize (text : String)
  | emptyPool
  /-- The server refuses the connection. -/
  | refused
  /-- A fault in a caller's words. -/
  | other (text : String)
  deriving DecidableEq, Repr

/-- Why a pool gives out no connection (`StmtError.Pool`). -/
inductive PoolFault where
  /-- A new connection is refused by the server. -/
  | refused
  /-- A fault in a caller's words. -/
  | other (text : String)
  deriving DecidableEq, Repr

/-- What a statement expected to find and did not (`StmtError.NotFound`). -/
inductive Missing where
  | countRow
  /-- A thing in a caller's words. -/
  | other (text : String)
  deriving DecidableEq, Repr

/-- An error of compiling or running a statement, or of its connection (`StmtError`). -/
inductive Error where
  | validation (cause : Rejection)
  | execution (sql : String) (cause : ServerFault)
  | decode (column : String) (cause : DecodeFault)
  | notFound (what : Missing)
  | connection (cause : ConnectionFault)
  | pool (cause : PoolFault)
  deriving DecidableEq, Repr

/-! ## Wording -/

/-- The prefix of every rejection. -/
def rejectionPrefix : String := "Validation error: "

/-- The wording of a recorded fault. -/
def BuildFault.message : BuildFault → String
  | .identifier fault => rejectionPrefix ++ fault.message
  | .templateArity sql placeholders given =>
    "template " ++ Text.Quoted.quote sql ++ " has " ++ toString placeholders ++
      " placeholder(s) but " ++ toString given ++ " value(s) were given"

/-- The wording of a rejection. -/
def Rejection.message : Rejection → String
  | .identifier fault => fault.message
  | .recorded fault => fault.message
  | .sortDirection direction column =>
    "invalid ORDER BY direction '" ++ direction ++ "' for '" ++ column ++
      "': expected ASC or DESC"
  | .sortNulls nulls column =>
    "invalid ORDER BY nulls '" ++ nulls ++ "' for '" ++ column ++ "': expected FIRST or LAST"
  | .noConditions => "no WHERE conditions"
  | .noRows => "INSERT requires at least one row of values"
  | .noColumns => "multi-row INSERT requires at least one column"
  | .repeatedColumn name => "INSERT sets column '" ++ name ++ "' more than once"
  | .rowShape number =>
    "INSERT row " ++ toString number ++ " sets different columns than row 1"
  | .noAssignments => "UPDATE requires at least one SET column"
  | .noTargetColumns => "ON CONFLICT requires at least one target column"
  | .constraintName fault =>
    "ON CONFLICT ON CONSTRAINT: " ++ rejectionPrefix ++ fault.message
  | .constraintFilter => "ON CONFLICT ON CONSTRAINT cannot take an index predicate"
  | .noUpdateColumns => "ON CONFLICT DO UPDATE requires at least one column"
  | .noUpdateValues => "ON CONFLICT DO UPDATE requires at least one value"
  | .unknownTable table => "table '" ++ table ++ "' is not registered"
  | .unknownColumn column schema table =>
    "column '" ++ column ++ "' does not exist on " ++ schema ++ "." ++ table
  | .unknownConstraint name schema table =>
    "constraint '" ++ name ++ "' does not exist on " ++ schema ++ "." ++ table
  | .badCatalog => "invalid schema description"
  | .other text => text

/-- The wording of a failed submission. -/
def ServerFault.message : ServerFault → String
  | .reported _ => "db error"
  | .parameterCount expected actual =>
    "expected " ++ toString expected ++ " parameters but got " ++ toString actual
  | .closed => "connection closed"

/-- The wording of a failed reading. -/
def DecodeFault.message : DecodeFault → String
  | .noColumn name => "invalid column `" ++ name ++ "`"
  | .mismatch index => "error deserializing column " ++ toString index
  | .other text => text

/-- The wording of a missing connection. -/
def ConnectionFault.message : ConnectionFault → String
  | .noAddress => "DATABASE_URL is not set"
  | .badAddress => "invalid connection string"
  | .badPoolSize text => "invalid PGSTMT_POOL_MAX_SIZE '" ++ text ++ "'"
  | .emptyPool => "pool max_size must be at least 1"
  | .refused => "db error"
  | .other text => text

/-- The wording of a failed checkout. -/
def PoolFault.message : PoolFault → String
  | .refused => "Error occurred while creating a new object: db error"
  | .other text => text

/-- The wording of a missing thing. -/
def Missing.message : Missing → String
  | .countRow => "COUNT(*) returned no rows"
  | .other text => text

/-! ## Rejecting -/

/-- Rejects if a fault was recorded (`fail_on`). -/
def BuildFault.check : Option BuildFault → Except Rejection Unit
  | some fault => .error (.recorded fault)
  | none => .ok ()

/-- Rejects if the fault of a name was recorded. -/
def Identifier.check (fault : Option Identifier.Fault) : Except Rejection Unit :=
  BuildFault.check (fault.map .identifier)

/-- The identifier of a name given as text. -/
def Identifier.expect (name : String) : Except Rejection Identifier :=
  (Identifier.parse name).mapError .identifier

theorem Identifier.expect_ok {name : String} {x : Identifier}
    (h : Identifier.parse name = .ok x) : Identifier.expect name = .ok x := by
  rw [expect, h]
  rfl

theorem Identifier.expect_error {name : String} {fault : Identifier.Fault}
    (h : Identifier.parse name = .error fault) :
    Identifier.expect name = .error (.identifier fault) := by
  rw [expect, h]
  rfl

namespace Error

/-- The wording of an error. -/
def message : Error → String
  | .validation cause => rejectionPrefix ++ cause.message
  | .execution sql cause => "Execution error: " ++ cause.message ++ " (sql: " ++ sql ++ ")"
  | .decode column cause =>
    "Decode error on column '" ++ column ++ "': " ++ cause.message
  | .notFound what => "Not found: " ++ what.message
  | .connection cause => "Connection error: " ++ cause.message
  | .pool cause => "Pool error: " ++ cause.message

/-! ## Questions about an error -/

/-- Whether a statement was rejected before anything was sent (`StmtError.is_validation`). -/
def isValidation : Error → Bool
  | .validation _ => true
  | _ => false

/-- Whether something expected was missing (`StmtError.is_not_found`). -/
def isNotFound : Error → Bool
  | .notFound _ => true
  | _ => false

/-- The report of the server, if it made one. -/
def report? : Error → Option ServerReport
  | .execution _ (.reported report) => some report
  | _ => none

/-- The state code of the server's report (`StmtError.db_code`). -/
def code? (e : Error) : Option String := e.report?.map (·.code)

/-- The constraint that the server's report names (`StmtError.constraint`). -/
def constraint? (e : Error) : Option String := e.report?.bind (·.constraint)

/-- The state code of a unique violation. -/
def uniqueViolation : String := "23505"

/-- Whether the server found a value that has to be unique twice
(`StmtError.is_unique_violation`). -/
def isUniqueViolation (e : Error) : Bool := e.code? = some uniqueViolation

end Error

end ParamSql
