/-
  Conversations with a server.

  A statement with parameters is read by the server first, which says of which types the
  parameters are; the values are then encoded and bound, and the server answers with rows and
  an ending.  A statement without parameters is sent as it is.  A server can refuse to read a
  statement, can fail after some rows, and can hang up.

  * `Server.source` is a source whose connections lead to such a server.
-/
import QueryClient.Session.Source
import QueryClient.Wire.Decode
import QueryClient.Wire.Encode

namespace QueryClient.Wire

open QueryClient.Number QueryClient.Session

/-- The bytes of a value, or null. -/
abbrev Cell := Option (List UInt8)

structure Column where
  name : String
  type : SqlType

/-- What a client sends. -/
inductive Message where
  /-- A statement to read. -/
  | parse (sql : String)
  /-- Values for the statement that was read. -/
  | bind (values : List Cell)
  /-- A statement without parameters. -/
  | simple (sql : String)

/-- A value as hexadecimal digits, or null. -/
def Cell.toJson : Cell → Json
  | some bytes => .str (Text.hex bytes)
  | none => .null

/-- What a client sends, as JSON. -/
def Message.toJson : Message → Json
  | .parse sql => .object [("parse", .str sql)]
  | .bind values => .object [("bind", .arr (values.map Cell.toJson))]
  | .simple sql => .object [("simple", .str sql)]

/-- How a server fails. -/
inductive Trouble where
  | report (r : ServerReport)
  | hangUp

/-- The answer of a server to a statement. -/
structure Reply where
  /-- What happens instead of reading the statement. -/
  unread : Option Trouble := none
  params : List SqlType := []
  columns : List Column := []
  rows : List (List Cell) := []
  /-- What comes after the rows; if nothing fails, words that say what was done. -/
  ending : Except Trouble String := .ok ""

/-- Where connections come from. -/
inductive Supply where
  /-- There is only one, which is kept. -/
  | single
  /-- A pool of one connection, which replaces one that is closed. -/
  | pool (closed : Bool)

/-- A server, and the one connection to it that there is at a time. -/
structure Server where
  supply : Supply
  /-- Whether the connection is open. -/
  isOpen : Bool
  /-- How many connections have been opened. -/
  opened : Nat
  /-- The answers that are left. -/
  replies : List Reply := []
  /-- What the client has sent. -/
  sent : List Message := []

/-- What is done on the connection. -/
abbrev Talk := ExceptT Error (StateM Server)

namespace Talk

/-- Fails with an error of the driver and its causes. -/
def fail {α : Type} (e : DriverError) (causes : List Link) : Talk α :=
  throw (.ofDriver e causes)

def send (m : Message) : Talk Unit := do
  unless (← get).isOpen do
    fail .closed []
  modify fun s => { s with sent := s.sent ++ [m] }

/-- The next answer of the server. -/
def reply : Talk Reply := do
  let s ← get
  match s.replies with
  | [] => return {}
  | r :: rest =>
    set { s with replies := rest }
    return r

/-- Meets trouble. -/
def meet {α : Type} : Trouble → Talk α
  | .report r => fail (.report r) [.server r]
  | .hangUp => do
    modify fun s => { s with isOpen := false }
    fail .closed []

/-- What comes after the rows. -/
def finish (r : Reply) : Talk String :=
  match r.ending with
  | .ok tag => pure tag
  | .error t => meet t

end Talk

/-! ## Statements -/

/-- The error for a value that cannot be bound. -/
def BindError.toError (e : BindError) (index : Nat) : Error :=
  .ofDriver (.parameter index) [.other (e.message?.getD "")]

/-- The values as bytes, by the types of their parameters. -/
def encodeAll (types : List SqlType) (values : List Value) : Except Error (List Cell) :=
  if types.length = values.length then
    ((types.zip values).zipIdx).mapM fun ((type, v), index) =>
      (encode type v).mapError (·.toError index)
  else .error (.ofDriver (.parameterCount types.length values.length) [])

/-- Has the server read a statement, and binds values to it. -/
def prepare (sql : String) (values : List Value) : Talk Reply := do
  Talk.send (.parse sql)
  let r ← Talk.reply
  match r.unread with
  | some t => Talk.meet t
  | none =>
    Talk.send (.bind (← encodeAll r.params values))
    return r

/-- The error for a cell of a column that could not be read. -/
def DecodeError.toError (e : DecodeError) (column : String) (index : Nat) : Error :=
  let message := match e with
    | .unsupported type => "unsupported column type '" ++ type.display ++ "'"
    | .unsupportedElement type => "unsupported array element type '" ++ type.display ++ "'"
    | .malformed => (DriverError.column index).message
  ⟨.decode column message, []⟩

/-- The cells of a row under the names of their columns; of two columns with one name the later
one counts. -/
def readRow (columns : List Column) (cells : List Cell) : Except Error Row := do
  let pairs ← ((columns.zip cells).zipIdx).mapM fun ((column, cell), index) => do
    match decodeCell column.type cell with
    | .ok j => pure (column.name, j)
    | .error e => .error (e.toError column.name index)
  return Fields.ofList pairs

/-- The number of rows at the end of the words that say what was done. -/
def affectedRows (tag : String) : Nat :=
  let word := (tag.toList.reverse.takeWhile (· ≠ ' ')).reverse
  let digits := match word with
    | '+' :: digits => digits
    | digits => digits
  match readDigits (unsignedMax 64) .tooLarge 0 digits with
  | .ok n => n
  | .error _ => 0

def query (sql : String) (values : List Value) : Talk (List Row) := do
  let r ← prepare sql values
  let _ ← Talk.finish r
  r.rows.mapM fun cells => (readRow r.columns cells : Except Error Row)

def execute (sql : String) (values : List Value) : Talk Nat := do
  let r ← prepare sql values
  return affectedRows (← Talk.finish r)

/-- The rows one by one, and the error at their end, if there is one. -/
def stream (sql : String) (values : List Value) : Talk (List (Except Error Row)) := do
  let r ← prepare sql values
  let rows := r.rows.map (readRow r.columns)
  tryCatch
    (do
      let _ ← Talk.finish r
      return rows)
    fun e => return rows ++ [.error e]

def batch (sql : String) : Talk Unit := do
  Talk.send (.simple sql)
  let r ← Talk.reply
  match r.unread with
  | some t => Talk.meet t
  | none => do let _ ← Talk.finish r

/-! ## Connections -/

/-- A connection that is open, if the supply gives one. -/
def acquire : Talk Unit := do
  let s ← get
  match s.supply with
  | .single => return
  | .pool true =>
    let text := "Pool has been closed"
    throw ⟨.connection text, [.other text]⟩
  | .pool false =>
    unless s.isOpen do
      set { s with isOpen := true, opened := s.opened + 1 }

namespace Server

/-- A server to which there is one connection. -/
def single : Server := { supply := .single, isOpen := true, opened := 1 }

/-- A server with a pool that has not opened a connection yet. -/
def pooled : Server := { supply := .pool false, isOpen := false, opened := 0 }

/-- What is done on the connection, as an answer that comes at once. -/
def answer {α : Type} (talk : Talk α) (s : Server) : Answer α × Server :=
  let (result, s) := talk.run.run s
  (.now result, s)

/-- The source of connections to a server.  The server has no address at which it could be asked
to stop. -/
def source : Source Server where
  acquire := answer Wire.acquire
  query _ sql values := answer (Wire.query sql values)
  execute _ sql values := answer (Wire.execute sql values)
  stream _ sql values := answer (List.map .now <$> Wire.stream sql values)
  batch _ sql := answer (Wire.batch sql)
  cancel _ := answer (Talk.fail .connect [])
  close s :=
    match s.supply with
    | .single => s
    | .pool _ => { s with supply := .pool true, isOpen := false }

end Server

end QueryClient.Wire
