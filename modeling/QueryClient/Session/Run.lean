/-
  Runs: what a call does, step by step.

  A run ends with a value or is halted: it failed with an error, its caller gave it up, it
  panicked, or it waits for something that never comes.  A caller gives up at a deadline, and
  only while the run waits; of two deadlines at the same moment the inner one counts.

  * `within` gives up on a run after some time;
  * `onHalt` does something when a run is halted, as the things do that the run holds.
-/
import QueryClient.Session.State

namespace QueryClient.Session

/-- Why a run has no value. -/
inductive Halt where
  | failed (e : Error)
  /-- The caller who set the deadline with this number gave up. -/
  | dropped (level : Nat)
  | panicked (text : String)
  /-- It waits for something that never comes. -/
  | stuck

/-- What a run is given: the source, and the deadlines of its callers, the inner ones first. -/
structure Env (σ : Type) where
  source : Source σ
  deadlines : List Nat

/-- What a call does. -/
abbrev Run (σ : Type) := ReaderT (Env σ) (ExceptT Halt (StateM (State σ)))

variable {σ α : Type}

namespace Run

/-- Lets the cleanups go on as far as they can. -/
def settle : Run σ Unit := do
  let env ← read
  modify (State.settle env.source)

def log (e : Event) : Run σ Unit := modify (·.log e)

def trace (t : Trace) : Run σ Unit := log (.traced t)

/-- The present moment. -/
def now : Run σ Nat := do return (← get).now

/-- Fails with an error. -/
def fail (e : Error) : Run σ α := throw (.failed e)

/-- The value, or a failure. -/
def ofExcept : Except Error α → Run σ α
  | .ok a => pure a
  | .error e => fail e

/-- The outcome of a run that can fail. -/
def attempt (r : Run σ α) : Run σ (Except Error α) :=
  tryCatch (do return .ok (← r)) fun
    | .failed e => pure (.error e)
    | halt => throw halt

/-- A run that does something when it is halted, whatever the reason. -/
def onHalt (r : Run σ α) (handler : Run σ Unit) : Run σ α :=
  tryCatch r fun halt => do
    handler
    throw halt

/-- A run that does something at its end, halted or not. -/
def ensuring (r : Run σ α) (finalizer : Run σ Unit) : Run σ α := do
  let a ← r.onHalt finalizer
  finalizer
  return a

/-- The deadline that comes first, with its number, among those before `target`; without a
target, among all.  Of equal ones the inner one comes first. -/
def firstDeadline (target : Option Nat) : List Nat → Option (Nat × Nat)
  | [] => none
  | d :: outer =>
    let here := if target.all (d < ·) then some (outer.length, d) else none
    match here, firstDeadline target outer with
    | some (level, d), some (level', d') => some (if d' < d then (level', d') else (level, d))
    | some found, none => some found
    | none, found => found

/-- Waits for some time, or forever. -/
def wait (time : Option Nat) : Run σ Unit := do
  if time = some 0 then return
  settle
  let env ← read
  let start ← now
  let target := time.map (start + ·)
  match firstDeadline target env.deadlines with
  | some (level, d) =>
    modify (State.advance env.source d)
    throw (.dropped level)
  | none =>
    match target with
    | some t => modify (State.advance env.source t)
    | none => throw .stuck

/-- Waits for an answer. -/
def await (answer : Answer α) : Run σ α := do
  wait answer.wait
  ofExcept answer.result

/-- Gives up on a run after some time. -/
def within (time : Nat) (r : Run σ α) : Run σ (Option α) := do
  let env ← read
  let level := env.deadlines.length
  let deadline := (← now) + time
  let limited : Run σ α := ReaderT.adapt (fun _ => { env with deadlines := deadline :: env.deadlines }) r
  tryCatch (do return some (← limited)) fun
    | .dropped l => if l = level then pure none else throw (.dropped l)
    | halt => throw halt

/-- Makes a request, after noting that it is made. -/
def request (events : List Event) (ask : Source σ → σ → Answer α × σ) : Run σ (Answer α) := do
  let env ← read
  events.forM log
  let s ← get
  let (answer, source) := ask env.source s.source
  set { s with source }
  return answer

end Run

end QueryClient.Session
