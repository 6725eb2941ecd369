/-
  Sources of connections, and what they answer.

  A source is given by what it does in a state of its own.  It answers a request after some
  time, or never.
-/
import QueryClient.Error.Basic
import QueryClient.Json.Basic
import QueryClient.Value

namespace QueryClient.Session

/-- A row of a result: its columns with their values. -/
abbrev Row := Fields

/-- What comes of a request, and after how many nanoseconds; without a time it never comes. -/
structure Answer (α : Type) where
  wait : Option Nat
  result : Except Error α

namespace Answer

variable {α : Type}

/-- An answer that comes at once. -/
def now (result : Except Error α) : Answer α := ⟨some 0, result⟩

end Answer

/-- A source of connections with states in `σ`.  Requests on a connection name it by its
number. -/
structure Source (σ : Type) where
  acquire : σ → Answer Unit × σ
  query : Nat → String → List Value → σ → Answer (List Row) × σ
  execute : Nat → String → List Value → σ → Answer Nat × σ
  /-- Opens a stream: the answers to the requests for its rows. -/
  stream : Nat → String → List Value → σ → Answer (List (Answer Row)) × σ
  batch : Nat → String → σ → Answer Unit × σ
  /-- Asks the server to stop what it does on a connection. -/
  cancel : Nat → σ → Answer Unit × σ
  close : σ → σ

end QueryClient.Session
