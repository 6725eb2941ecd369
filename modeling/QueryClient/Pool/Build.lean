/-
  Making a pool from a connection string.
-/
import QueryClient.Error.Basic
import QueryClient.Pool.ConnectionString

namespace QueryClient.Pool

/-- The number of connections of a pool if none is asked for. -/
def defaultSize : Nat := 16

/-- The size of the pool that a connection string makes.  A pool can only keep to timeouts if
it has something to keep time with, and none is given to it. -/
def sizeFor (connection : String) (size : Option Nat) (timeouts : Bool) : Except Error Nat :=
  match parameters? connection with
  | none => .error ⟨.connection DriverError.settings.message, []⟩
  | some _ =>
    if timeouts then
      .error ⟨.connection ("failed to build pool: Error occurred while building the pool: " ++
        "Timeouts require a runtime"), []⟩
    else .ok (size.getD defaultSize)

end QueryClient.Pool
