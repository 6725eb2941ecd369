/-
  Settings of a client: ceilings for statements, the retry policy and the schema that a query
  uses if it names none.

  Every setting has a default.  In JSON a setting may be left out, and spans of time are given
  in milliseconds.
-/
import QueryClient.Config.Duration
import QueryClient.Ident.Basic
import QueryClient.Json.Reading

namespace QueryClient

open QueryClient.Json (Reader RecordField readRecord)

/-- Ceilings for statements. -/
structure Safety where
  /-- The greatest length of a list after `IN`. -/
  maxInElements : Nat := 1000
  /-- The greatest number of cells in one insert. -/
  maxTotalParams : Nat := 65535
  /-- How long a statement may run, if that is limited. -/
  statementTimeout : Option Duration := none
  deriving DecidableEq, Inhabited

/-- How often and how fast failed calls are tried again. -/
structure RetryPolicy where
  /-- All attempts, the first one included. -/
  attempts : Nat := 1
  /-- The delay before the first retry; it doubles from one retry to the next. -/
  backoff : Duration := .ofMillis 100
  deriving DecidableEq, Inhabited

/-- The delay before a retry, counted from one. -/
def RetryPolicy.delayFor (p : RetryPolicy) (retry : Nat) : Duration :=
  let shift := retry - 1
  p.backoff.scale (if shift < 32 then Nat.pow 2 shift else Number.unsignedMax 32)

/-- The settings of a client. -/
structure Config where
  schema : String := "public"
  safety : Safety := {}
  retry : RetryPolicy := {}
  deriving DecidableEq, Inhabited

namespace Config

/-- Refuses settings with which every call would fail. -/
def validate (c : Config) : Except Error Unit := do
  let _ ← Ident.parse .schema c.schema
  if c.safety.maxInElements = 0 then
    .error (.validation "max_in_elements must be at least 1")
  else if c.safety.maxTotalParams = 0 then
    .error (.validation "max_total_params must be at least 1")
  else if c.retry.attempts = 0 then
    .error (.validation "retry attempts must be at least 1")
  else .ok ()

/-! ## As JSON -/

def safetyFields : List (RecordField Safety) := [
  .of "max_in_elements" .defaulted (Reader.natural "usize" 64)
    fun n s => { s with maxInElements := n },
  .of "max_total_params" .defaulted (Reader.natural "usize" 64)
    fun n s => { s with maxTotalParams := n },
  .of "statement_timeout_ms" .defaulted (Reader.nullable (Reader.natural "u64" 64))
    fun ms s => { s with statementTimeout := ms.map .ofMillis }]

def readSafety : Reader Safety := readRecord "SafetyOptions" safetyFields {}

def retryFields : List (RecordField RetryPolicy) := [
  .of "attempts" .defaulted (Reader.natural "u32" 32) fun n p => { p with attempts := n },
  .of "backoff_ms" .defaulted (Reader.natural "u64" 64)
    fun ms p => { p with backoff := .ofMillis ms }]

def readRetry : Reader RetryPolicy := readRecord "RetryPolicy" retryFields {}

def configFields : List (RecordField Config) := [
  .of "schema" .defaulted Reader.string fun s c => { c with schema := s },
  .of "safety" .defaulted readSafety fun s c => { c with safety := s },
  .of "retry" .defaulted readRetry fun p c => { c with retry := p }]

/-- Settings from JSON. -/
def read : Reader Config := readRecord "ClientConfig" configFields {}

def safetyJson (s : Safety) : Json :=
  .object [
    ("max_in_elements", .int s.maxInElements),
    ("max_total_params", .int s.maxTotalParams),
    ("statement_timeout_ms",
      match s.statementTimeout with
      | some d => .int d.millis64
      | none => .null)]

def retryJson (p : RetryPolicy) : Json :=
  .object [("attempts", .int p.attempts), ("backoff_ms", .int p.backoff.millis64)]

/-- Settings as JSON. -/
def toJson (c : Config) : Json :=
  .object [
    ("schema", .str c.schema),
    ("safety", safetyJson c.safety),
    ("retry", retryJson c.retry)]

end Config

end QueryClient
