/-
  Classes of characters given as tables of ranges.
-/

namespace QueryClient.Text

/-- Whether some range with an index from `lo` below `lo + n` holds `c`, for a table whose
ranges are disjoint and in increasing order. -/
def inRanges (table : Array (Nat × Nat)) (c lo : Nat) : Nat → Bool
  | 0 => false
  | n + 1 =>
    let half := (n + 1) / 2
    match table[lo + half]? with
    | none => false
    | some (first, last) =>
      if c < first then inRanges table c lo half
      else if c ≤ last then true
      else inRanges table c (lo + half + 1) (n - half)
termination_by n => n
decreasing_by all_goals omega

end QueryClient.Text
