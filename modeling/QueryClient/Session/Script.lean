/-
  A source that answers by a script.

  For each kind of request there is a queue of answers; when it is used up, the request
  succeeds at once, without rows.  A statement with a given beginning can be made to fail
  whatever the queues say.
-/
import QueryClient.Session.Connection

namespace QueryClient.Session

/-- The answers that are left. -/
structure Script where
  acquires : List (Answer Unit) := []
  queries : List (Answer (List Row)) := []
  executes : List (Answer Nat) := []
  streams : List (Answer (List (Answer Row))) := []
  cancels : List (Answer Unit) := []
  /-- Beginnings of statements, with the error of the first statement that begins so. -/
  failures : List (String × Error) := []

namespace Script

variable {α : Type}

/-- The next answer of a queue, or `standard` if it is used up; and what is left of it. -/
def pop (standard : α) : List (Answer α) → Answer α × List (Answer α)
  | [] => (.now (.ok standard), [])
  | answer :: rest => (answer, rest)

/-- The first failure that a statement meets, and those that are left. -/
def takeFailure? (sql : String) : List (String × Error) → Option (Error × List (String × Error))
  | [] => none
  | (beginning, e) :: rest =>
    if beginning.toList.isPrefixOf sql.toList then some (e, rest)
    else (takeFailure? sql rest).map fun (found, rest) => (found, (beginning, e) :: rest)

/-- The answer to a statement: a failure that it meets, or else what `answer` says. -/
def answering (sql : String) (answer : Script → Answer α × Script) (s : Script) :
    Answer α × Script :=
  match takeFailure? sql s.failures with
  | some (e, rest) => (.now (.error e), { s with failures := rest })
  | none => answer s

/-- What the statements begin with that only change a setting. -/
def settingFront : String := "SELECT set_config"

def query (sql : String) : Script → Answer (List Row) × Script :=
  answering sql fun s =>
    if settingFront.toList.isPrefixOf sql.toList then (.now (.ok []), s)
    else
      let (answer, rest) := pop [] s.queries
      (answer, { s with queries := rest })

def execute (sql : String) : Script → Answer Nat × Script :=
  answering sql fun s =>
    let (answer, rest) := pop 0 s.executes
    (answer, { s with executes := rest })

def stream (sql : String) : Script → Answer (List (Answer Row)) × Script :=
  answering sql fun s =>
    let (answer, rest) := pop [] s.streams
    (answer, { s with streams := rest })

def batch (sql : String) : Script → Answer Unit × Script :=
  answering sql fun s => (.now (.ok ()), s)

/-- The source. -/
def source : Source Script where
  acquire s :=
    let (answer, rest) := pop () s.acquires
    (answer, { s with acquires := rest })
  query _ sql _ := query sql
  execute _ sql _ := execute sql
  stream _ sql _ := stream sql
  batch _ sql := batch sql
  cancel _ s :=
    let (answer, rest) := pop () s.cancels
    (answer, { s with cancels := rest })
  close := id

end Script

end QueryClient.Session
