/-
  The state of affairs while calls are made.

  Time passes only while a call waits.  A call that is given up leaves its connection to a
  cleanup, which goes on beside the calls: it asks the server to stop, restores the session, and
  then lets go of the connection.

  * `settle` lets every cleanup go on as far as it can at the present moment;
  * `advance` lets time pass up to a moment.
-/
import QueryClient.Session.Event
import QueryClient.Session.Source

namespace QueryClient.Session

/-- What a cleanup does. -/
inductive CleanupStep where
  /-- Asks the server to stop. -/
  | cancel
  /-- Restores the time limit of the session. -/
  | reset
  deriving DecidableEq, Repr

/-- The statement that restores the time limit of a session. -/
def resetStatement : String := "RESET statement_timeout"

/-- The entry of the log about a step that is over. -/
def CleanupStep.trace? (step : CleanupStep) (result : Except Error Unit) : Option Trace :=
  match step, result with
  | .cancel, .ok _ => some (.debug "backend statement cancelled")
  | .cancel, .error e => some (.debugError "backend cancel failed" e.message)
  | .reset, .ok _ => none
  | .reset, .error e => some (.debugError "failed to reset statement_timeout" e.message)

/-- The steps of a cleanup. -/
def cleanupSteps (cancel reset : Bool) : List CleanupStep :=
  (if cancel then [.cancel] else []) ++ if reset then [.reset] else []

/-- A step that waits for its answer. -/
structure PendingStep where
  step : CleanupStep
  /-- When the answer comes, if it does. -/
  due : Option Nat
  result : Except Error Unit

/-- A cleanup: the step that it waits for, if any, and the further steps. -/
structure Cleanup where
  conn : Nat
  pending : Option PendingStep
  steps : List CleanupStep

/-- The state of affairs: the source, the time in nanoseconds, what has happened and when, the
number of connections handed out, those that calls hold, and the cleanups under way. -/
structure State (σ : Type) where
  source : σ
  now : Nat := 0
  history : List Event := []
  /-- When each of them happened. -/
  moments : List Nat := []
  connections : Nat := 0
  held : List Nat := []
  cleanups : List Cleanup := []

variable {σ : Type}

namespace State

/-- The state after something more has happened. -/
def log (s : State σ) (e : Event) : State σ :=
  { s with history := s.history ++ [e], moments := s.moments ++ [s.now] }

def trace (s : State σ) (t : Trace) : State σ := s.log (.traced t)

/-- Notes that a connection is released, if neither a call nor one of some cleanups holds
it. -/
def releaseUnless (s : State σ) (others : List Cleanup) (conn : Nat) : State σ :=
  if conn ∈ s.held ∨ others.any (·.conn = conn) then s else s.log (.released conn)

/-- Hands out the next connection. -/
def hold (s : State σ) : Nat × State σ :=
  let conn := s.connections + 1
  (conn, { s with connections := conn, held := conn :: s.held }.log (.acquired conn))

/-- A call lets go of a connection. -/
def letGo (s : State σ) (conn : Nat) : State σ :=
  let s := { s with held := s.held.erase conn }
  s.releaseUnless s.cleanups conn

/-- Leaves a connection to a cleanup. -/
def spawn (s : State σ) (conn : Nat) (steps : List CleanupStep) : State σ :=
  { s with cleanups := s.cleanups ++ [⟨conn, none, steps⟩] }

/-- The request that a step of a cleanup makes. -/
def startStep (src : Source σ) (conn : Nat) (step : CleanupStep) (s : State σ) :
    Answer Unit × State σ :=
  match step with
  | .cancel =>
    let (answer, source) := src.cancel conn s.source
    (answer, { s.log (.cancelled conn) with source })
  | .reset =>
    let (answer, source) := src.batch conn resetStatement s.source
    (answer, { s.log (.sent .batch conn resetStatement []) with source })

/-- Notes that a step is over. -/
def endStep (s : State σ) (step : CleanupStep) (result : Except Error Unit) : State σ :=
  match step.trace? result with
  | some t => s.trace t
  | none => s

/-- Goes on with steps up to the first one that has to wait. -/
def runSteps (src : Source σ) (conn : Nat) : List CleanupStep → State σ →
    State σ × Option Cleanup
  | [], s => (s, none)
  | step :: rest, s =>
    let (answer, s) := startStep src conn step s
    if answer.wait = some 0 then runSteps src conn rest (s.endStep step answer.result)
    else (s, some ⟨conn, some ⟨step, answer.wait.map (s.now + ·), answer.result⟩, rest⟩)

/-- Goes on with a cleanup as far as it can at the present moment. -/
def runCleanup (src : Source σ) (c : Cleanup) (s : State σ) : State σ × Option Cleanup :=
  match c.pending with
  | none => runSteps src c.conn c.steps s
  | some p =>
    if p.due.any (· ≤ s.now) then runSteps src c.conn c.steps (s.endStep p.step p.result)
    else (s, some c)

/-- Goes on with some cleanups, one after the other. -/
def settleAll (src : Source σ) : List Cleanup → State σ → State σ
  | [], s => s
  | c :: rest, s =>
    match runCleanup src c s with
    | (s, some c) => settleAll src rest { s with cleanups := s.cleanups ++ [c] }
    | (s, none) => settleAll src rest (s.releaseUnless (s.cleanups ++ rest) c.conn)

/-- Lets every cleanup go on as far as it can at the present moment. -/
def settle (src : Source σ) (s : State σ) : State σ :=
  settleAll src s.cleanups { s with cleanups := [] }

/-- The earliest moment before `t` at which a cleanup has its answer. -/
def nextDue (t : Nat) (cleanups : List Cleanup) : Option Nat :=
  ((cleanups.filterMap fun c => c.pending.bind (·.due)).filter (· < t)).min?

/-- Lets time pass up to `t`, with `fuel` for the answers on the way. -/
def advanceWithin (src : Source σ) (t : Nat) : Nat → State σ → State σ
  | 0, s => { s with now := max s.now t }
  | fuel + 1, s =>
    match nextDue t s.cleanups with
    | none => { s with now := max s.now t }
    | some due => advanceWithin src t fuel (settle src { s with now := max s.now due })

/-- Lets time pass up to `t`: every cleanup has one answer for each of its steps at most. -/
def advance (src : Source σ) (t : Nat) (s : State σ) : State σ :=
  advanceWithin src t (s.cleanups.foldl (fun n c => n + c.steps.length + 1) 0) s

end State

end QueryClient.Session
