/-
  Clients: settings and hooks, for calls on a source of connections.

  A client that belongs to a transaction makes all of its calls on the transaction's
  connection.
-/
import QueryClient.Config.Basic
import QueryClient.Query.Basic
import QueryClient.Response
import QueryClient.Session.Run

namespace QueryClient.Session

/-- What calls are made with. -/
structure Client where
  config : Config := {}
  hooks : List Hook := []
  /-- The connection of the transaction that the client belongs to. -/
  transaction : Option Nat := none

namespace Client

variable {σ α : Type}

/-- A client with some settings, unless they are refused. -/
def ofConfig (config : Config) (hooks : List Hook) : Except Error Client := do
  config.validate
  return { config, hooks }

/-- The selection of all columns of a table. -/
def table (c : Client) (name : String) : Query := .ofTable c.config.schema name

/-- The call of a function. -/
def function (c : Client) (name : String) (args : List Value) : Query :=
  .ofFunction c.config.schema name args

def inTransaction (c : Client) : Bool := c.transaction.isSome

/-- Shows an event to the hooks. -/
def notify (c : Client) (e : HookEvent) : Run σ Unit := do
  unless c.hooks.isEmpty do
    Run.log (.shown e)
    (dispatch c.hooks e).forM Run.trace

/-- Shows the hooks a statement that is about to be sent. -/
def showStatement (c : Client) (operation sql : String) (values : List Value) : Run σ Unit :=
  c.notify (.statement (.of operation sql values))

/-- Shows the hooks an error of a call. -/
def showFailure (c : Client) (operation : String) (sql : Option String) (e : Error) :
    Run σ Unit :=
  c.notify (.failure ⟨operation, sql, e⟩)

/-- The response of a call that failed, which the hooks are shown. -/
def refuse (c : Client) (operation : String) (sql : Option String) (e : Error) :
    Run σ (Response α) := do
  c.showFailure operation sql e
  return .err e

/-- Closes the source.  A client that belongs to a transaction leaves it open. -/
def close (c : Client) : Run σ Unit := do
  unless c.inTransaction do
    let env ← read
    Run.log .closed
    modify fun s => { s with source := env.source.close s.source }

end Client

end QueryClient.Session
