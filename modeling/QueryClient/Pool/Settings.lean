/-
  Settings of a connection pool: how to reach a database, and how many connections to keep.
-/
import QueryClient.Bounds
import QueryClient.Json.Reading

namespace QueryClient.Pool

open QueryClient.Json (Reader RecordField readRecord)

/-- How to reach a database, and how many connections to keep. -/
structure Settings where
  host : String
  /-- Checked when the settings are put to use. -/
  port : Int := 5432
  user : String
  password : Option String := none
  dbname : String
  maxSize : Nat := 16
  deriving DecidableEq

/-- Where a server listens. -/
inductive Host where
  | tcp (name : String)
  /-- A directory that holds a socket. -/
  | unix (path : String)
  deriving DecidableEq

/-- A name that starts with a slash is a directory. -/
def Host.ofName (name : String) : Host :=
  if name.toList.head? = some '/' then .unix name else .tcp name

/-- What the driver connects with. -/
structure Connection where
  host : Host
  port : Nat
  user : String
  password : Option String
  dbname : String
  deriving DecidableEq

namespace Settings

/-- What the driver connects with; the port has to be one. -/
def connection (s : Settings) : Except Error Connection := do
  let port ← Bounds.port s.port
  pure ⟨.ofName s.host, port, s.user, s.password, s.dbname⟩

/-- The size of the pool that the settings make. -/
def poolSize (s : Settings) : Except Error Nat := do
  let _ ← s.connection
  pure s.maxSize

def fields : List (RecordField Settings) := [
  .of "host" .required Reader.string fun v s => { s with host := v },
  .of "port" .defaulted Reader.int64 fun v s => { s with port := v },
  .of "user" .required Reader.string fun v s => { s with user := v },
  .of "password" .defaulted (Reader.nullable Reader.string) fun v s => { s with password := v },
  .of "dbname" .required Reader.string fun v s => { s with dbname := v },
  .of "max_size" .defaulted (Reader.natural "usize" 64) fun v s => { s with maxSize := v }]

/-- Settings from JSON. -/
def read : Reader Settings :=
  readRecord "PoolSettings" fields { host := "", user := "", dbname := "" }

end Settings

end QueryClient.Pool
