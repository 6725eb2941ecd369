/-
  Exchanges: what a caller asks of a server, one thing after the other, and what comes of it.

  * `Exchange.play` plays a list of requests against a server that answers as it is told.
-/
import QueryClient.Session.Execute
import QueryClient.Wire.Server

namespace QueryClient.Wire.Exchange

open QueryClient.Session (Client Row Run State)

/-- What a caller asks for. -/
inductive Request where
  | query (sql : String) (values : List Value)
  | execute (sql : String) (values : List Value)
  | stream (sql : String) (values : List Value)
  | batch (sql : String)
  /-- A limit to the time of the statements that follow. -/
  | limitTime (limit : Duration) (inTransaction : Bool)
  | cancel
  | closeSource
  /-- A query that a client executes. -/
  | call (c : Client) (q : Query)

/-- What comes of a request. -/
inductive Result where
  | rows (rows : List Row)
  | affected (n : Nat)
  /-- The items of a stream, up to the first error that is not about a single row. -/
  | items (items : List (Except Error Row))
  | done
  | response (r : Response Json)

/-- Items up to the first one after which there are no more. -/
def upToFailure : List (Except Error Row) → List (Except Error Row)
  | [] => []
  | .error e :: rest => .error e :: (if e.code = .decode then upToFailure rest else [])
  | .ok row :: rest => .ok row :: upToFailure rest

/-- Does something on a connection. -/
def onConnection {α : Type} (body : Nat → Run Server α) : Run Server α := do
  let conn ← Session.acquire none
  (body conn).ensuring (modify (·.letGo conn))

def request : Request → Run Server Result
  | .query sql values => onConnection fun conn => do
    return .rows (← Run.await (← Session.query conn sql values))
  | .execute sql values => onConnection fun conn => do
    return .affected (← Run.await (← Session.execute conn sql values))
  | .stream sql values => onConnection fun conn => do
    let answers ← Run.await (← Session.openStream conn sql values)
    return .items (upToFailure (answers.map (·.result)))
  | .batch sql => onConnection fun conn => do
    Session.batch conn sql
    return .done
  | .limitTime limit inTransaction => onConnection fun conn => do
    Session.limitTime conn limit inTransaction
    return .done
  | .cancel => onConnection fun conn => do
    Run.await (← Run.request [.cancelled conn] fun source => source.cancel conn)
    return .done
  | .closeSource => do
    ({} : Client).close
    return .done
  | .call c q => do return .response (← c.execute q none)

/-- What came of a request, and what was sent for it. -/
structure Report where
  result : Except Error Result
  sent : List Message

/-- Makes a request of a server that has answers for it. -/
def playOne (r : Request) (replies : List Reply) : Run Server Report := do
  modify fun s => { s with source := { s.source with replies, sent := [] } }
  let result ← Run.attempt (request r)
  return { result, sent := (← get).source.sent }

/-- Makes some requests; gives what came of them and the number of connections opened. -/
def play (s : Server) (requests : List (Request × List Reply)) : List Report × Nat :=
  let run : Run Server (List Report) := requests.mapM fun (r, replies) => playOne r replies
  let start : State Server := { source := s }
  match (run.run { source := Server.source, deadlines := [] }).run.run start with
  | (.ok reports, s) => (reports, s.source.opened)
  | (.error _, s) => ([], s.source.opened)

end QueryClient.Wire.Exchange
