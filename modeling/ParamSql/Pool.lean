import ParamSql.Error
import ParamSql.Pool.Address

/-!
# Connection pools

The settings of a pool: the address of the server, the greatest number of connections, and how a
connection is tested when it comes back. A pool opens no connection before one is asked for, so
setting it up only fails for settings that can never work.

Models `PoolConfig`.

Results:
* `build_eq_ok_iff`: which settings make a pool.
-/

namespace ParamSql

/-- How a connection is tested when it comes back (`Recycling`). -/
inductive Recycling where
  /-- It is only not closed. -/
  | fast
  /-- It answers a query. -/
  | verified
  deriving DecidableEq, Repr

/-- The name of a test. -/
def Recycling.name : Recycling → String
  | .fast => "Fast"
  | .verified => "Verified"

/-- The settings of a pool (`PoolConfig`). -/
structure PoolSettings where
  address : String
  maxSize : Nat
  recycling : Recycling
  deriving DecidableEq, Repr

/-- A pool that has been set up. -/
structure Pool where
  maxSize : Nat
  deriving DecidableEq, Repr

namespace PoolSettings

/-- Sizes are below 2^64. -/
def sizeBound : Nat := Decimal.twoTo 64

/-- Sixteen connections to no server in particular. -/
def default : PoolSettings := ⟨"", 16, .fast⟩

/-- The settings for an address (`PoolConfig.new`). -/
def ofAddress (address : String) : PoolSettings := { default with address }

/-- The settings of an environment: an address, which has to be set, and a size
(`PoolConfig.from_env`). -/
def ofEnvironment (address size : Option String) : Except ConnectionFault PoolSettings :=
  match address, size with
  | none, _ => .error .noAddress
  | some address, none => .ok (ofAddress address)
  | some address, some text =>
    match Decimal.natural? sizeBound text.toList with
    | some maxSize => .ok { ofAddress address with maxSize }
    | none => .error (.badPoolSize text)

/-- Sets up a pool (`PoolConfig.build`). Its size is looked at before its address. -/
def build (s : PoolSettings) : Except ConnectionFault Pool :=
  if s.maxSize = 0 then .error .emptyPool
  else if Pool.Address.isAddress s.address then .ok ⟨s.maxSize⟩
  else .error .badAddress

theorem build_eq_ok_iff (s : PoolSettings) (pool : Pool) :
    s.build = .ok pool ↔
      s.maxSize ≠ 0 ∧ Pool.Address.isAddress s.address = true ∧ pool = ⟨s.maxSize⟩ := by
  by_cases h : s.maxSize = 0
  · simp [build, h]
  · by_cases ha : Pool.Address.isAddress s.address = true
    · simp [build, h, ha, eq_comm]
    · simp [build, h, ha]

end PoolSettings

end ParamSql
