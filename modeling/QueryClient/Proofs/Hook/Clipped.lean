/-
  What the log shows of a statement under a budget of bytes.

  * `Text.IsLongestFront`: a text is the longest front of another one within a budget;
  * `Text.exists_longest_front`: the front before the last boundary of characters is;
  * `longest_front_written`: what `clip` makes of a statement, under any budget;
  * `TracingHook.failure_hook`: the hook that writes statements does not fail.
-/
import QueryClient.Hook.Tracing

namespace QueryClient

open QueryClient.Text

/-! ## The longest front -/

namespace Text

/-- A text is the longest front of another one within a budget of bytes.  Fronts are texts, so they
end between characters. -/
structure IsLongestFront (s : String) (budget : Nat) (front : String) : Prop where
  isFront : ∃ rest, s = front ++ rest
  size_le : front.utf8ByteSize ≤ budget
  longest : ∀ other rest, s = other ++ rest → other.utf8ByteSize ≤ budget →
    other.utf8ByteSize ≤ front.utf8ByteSize

/-- The way back from the budget ends where the longest front does. -/
theorem exists_longest_front (s : String) (budget : Nat) :
    ∃ front, front? s (lastBoundary s budget) = some front ∧ IsLongestFront s budget front := by
  obtain ⟨front, rest, happend, hsize⟩ :=
    isValid_iff_exists_front.1 (isValid_lastBoundary s budget)
  refine ⟨front, front?_eq_some_iff.2 ⟨rest, happend, hsize⟩, ⟨rest, happend⟩, ?_, ?_⟩
  · rw [hsize]
    exact lastBoundary_le s budget
  · intro other rest hother hle
    rw [hsize]
    exact le_lastBoundary (isValid_iff_exists_front.2 ⟨other, rest, hother, rfl⟩) hle

end Text

/-! ## Statements under a budget -/

theorem clip_of_le {b : Nat} {sql : String} (h : sql.utf8ByteSize ≤ b) :
    clip (some b) sql = some sql := if_pos h

theorem clip_of_front {b : Nat} {sql front : String} (h : b < sql.utf8ByteSize)
    (hfront : front? sql (lastBoundary sql b) = some front) :
    clip (some b) sql = some (front ++ sizeNote sql.utf8ByteSize) := by
  rw [clip, if_neg (Nat.not_le.2 h), hfront, Option.map_some]

theorem exists_clip (budget : Option Nat) (sql : String) : ∃ out, clip budget sql = some out := by
  cases budget with
  | none => exact ⟨sql, rfl⟩
  | some b =>
    rcases Nat.lt_or_ge b sql.utf8ByteSize with h | h
    · obtain ⟨front, hfront, -⟩ := exists_longest_front sql b
      exact ⟨_, clip_of_front h hfront⟩
    · exact ⟨sql, clip_of_le h⟩

/-- **What is written of a statement.**  Without a budget, or within it, the whole statement; of a
longer one its longest front within the budget, and behind it the number of all its bytes.  Whatever
the budget, the way back from it ends at a boundary of characters, so that there is a front before
it. -/
theorem longest_front_written (sql : String) :
    clip none sql = some sql ∧
    (∀ b, sql.utf8ByteSize ≤ b → clip (some b) sql = some sql) ∧
    (∀ b, String.Pos.Raw.IsValid sql ⟨lastBoundary sql b⟩) ∧
    ∀ b, b < sql.utf8ByteSize →
      ∃ front, IsLongestFront sql b front ∧ front? sql (lastBoundary sql b) = some front ∧
        clip (some b) sql =
          some (front ++ ("... [" ++ toString sql.utf8ByteSize ++ " bytes]")) := by
  refine ⟨rfl, fun b => clip_of_le, isValid_lastBoundary sql, fun b h => ?_⟩
  obtain ⟨front, hfront, hlongest⟩ := exists_longest_front sql b
  exact ⟨front, hlongest, hfront, clip_of_front h hfront⟩

/-- Ten bytes would end inside the accented letter, which is left out. -/
theorem longest_front_written_of_accent :
    "SELECT 'héllo' FROM t".utf8ByteSize ≤ 22 ∧ 10 < "SELECT 'héllo' FROM t".utf8ByteSize ∧
    clip (some 22) "SELECT 'héllo' FROM t" = some "SELECT 'héllo' FROM t" ∧
    IsLongestFront "SELECT 'héllo' FROM t" 10 "SELECT 'h" ∧
    clip (some 10) "SELECT 'héllo' FROM t" = some "SELECT 'h... [22 bytes]" := by
  have hfits : "SELECT 'héllo' FROM t".utf8ByteSize ≤ 22 := by decide
  have hlong : 10 < "SELECT 'héllo' FROM t".utf8ByteSize := by decide
  obtain ⟨-, hwhole, -, hcut⟩ := longest_front_written "SELECT 'héllo' FROM t"
  obtain ⟨front, hlongest, hfront, hclip⟩ := hcut 10 hlong
  obtain rfl : "SELECT 'h" = front := by
    have hslice : front? "SELECT 'héllo' FROM t" (lastBoundary "SELECT 'héllo' FROM t" 10) =
        some "SELECT 'h" := by decide
    rw [hslice] at hfront
    exact Option.some.inj hfront
  exact ⟨hfits, hlong, hwhole 22 hfits, hlongest, hclip⟩

/-! ## The hook -/

namespace TracingHook

theorem failure_outcome {t : Option Trace} (h : t.isSome) : (outcome t).failure = none := by
  obtain ⟨t, rfl⟩ := Option.isSome_iff_exists.1 h
  rfl

theorem isSome_statementTrace? (h : TracingHook) (e : StatementEvent) :
    (h.statementTrace? e).isSome := by
  obtain ⟨sql, hsql⟩ := exists_clip h.sqlBudget e.sql
  rw [statementTrace?, hsql]
  rfl

theorem isSome_failureTrace? (h : TracingHook) (e : ErrorEvent) :
    (h.failureTrace? e).isSome := by
  rw [failureTrace?]
  cases hsql : e.sql with
  | none => rfl
  | some sql =>
    obtain ⟨out, hout⟩ := exists_clip h.sqlBudget sql
    rw [Option.mapM_some, hout]
    rfl

/-- Whatever the statement and the budget, the hook does not panic. -/
theorem failure_hook (h : TracingHook) (e : HookEvent) : (h.hook e).failure = none := by
  cases e with
  | statement e =>
    rw [hook]
    split
    · rfl
    · exact failure_outcome (h.isSome_statementTrace? e)
  | failure e => exact failure_outcome (h.isSome_failureTrace? e)

end TracingHook

end QueryClient
