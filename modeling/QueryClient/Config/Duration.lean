/-
  Spans of time: seconds of 64 bits and nanoseconds below a billion.
-/
import QueryClient.Number.Width

namespace QueryClient

/-- A span of time in nanoseconds. -/
structure Duration where
  nanos : Nat
  deriving DecidableEq, Inhabited, Repr

namespace Duration

/-- The longest span. -/
def max : Duration := ⟨Number.unsignedMax 64 * 1000000000 + 999999999⟩

def ofMillis (ms : Nat) : Duration := ⟨ms * 1000000⟩

/-- The whole milliseconds. -/
def millis (d : Duration) : Nat := d.nanos / 1000000

/-- The whole milliseconds as far as 64 bits hold them. -/
def millis64 (d : Duration) : Nat := d.millis % (Number.unsignedMax 64 + 1)

/-- A multiple, or the longest span if that is longer. -/
def scale (d : Duration) (factor : Nat) : Duration :=
  ⟨Nat.min (d.nanos * factor) max.nanos⟩

/-- Whole seconds, and the nanoseconds beyond them. -/
def parts (d : Duration) : Nat × Nat := (d.nanos / 1000000000, d.nanos % 1000000000)

end Duration

end QueryClient
