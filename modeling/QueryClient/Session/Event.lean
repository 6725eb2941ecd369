/-
  What happens in the course of calls.
-/
import QueryClient.Hook.Basic

namespace QueryClient.Session

/-- How a statement is sent. -/
inductive StatementKind where
  /-- For all of its rows. -/
  | query
  /-- For the number of rows it affects. -/
  | execute
  /-- For its rows one by one. -/
  | stream
  /-- Without bound values, for its effect. -/
  | batch
  deriving DecidableEq, Repr

/-- Something that happened.  Connections are numbered in the order in which they were handed
out. -/
inductive Event where
  /-- A connection was asked for. -/
  | acquiring
  | acquired (conn : Nat)
  | acquireFailed
  /-- A statement was sent. -/
  | sent (kind : StatementKind) (conn : Nat) (sql : String) (values : List Value)
  /-- The server was asked to stop what it does on a connection. -/
  | cancelled (conn : Nat)
  /-- Nobody holds a connection any more. -/
  | released (conn : Nat)
  /-- The source of connections was closed. -/
  | closed
  /-- An entry was written to the log. -/
  | traced (t : Trace)
  /-- The hooks were shown something. -/
  | shown (e : HookEvent)

end QueryClient.Session
