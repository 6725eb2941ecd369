/-
  The length of texts in UTF-8, and fronts of a text up to a byte.

  * `length_le_byteLength`: a text has at least as many bytes as characters;
  * `front?_eq_some_iff`: the fronts of a text are those that end at a boundary of characters;
  * `isValid_lastBoundary` and `le_lastBoundary`: the way back from any byte ends at a boundary, the
    last one that is not behind the byte.
-/

namespace QueryClient.Text

/-- The number of bytes of some characters. -/
def byteLength (cs : List Char) : Nat := cs.foldl (fun n c => n + c.utf8Size) 0

theorem foldl_utf8Size (cs : List Char) (n : Nat) :
    cs.foldl (fun n c => n + c.utf8Size) n = n + byteLength cs := by
  induction cs generalizing n with
  | nil => rfl
  | cons c cs ih => rw [byteLength, List.foldl_cons, List.foldl_cons, ih, ih (0 + _)]; omega

theorem byteLength_cons (c : Char) (cs : List Char) :
    byteLength (c :: cs) = c.utf8Size + byteLength cs := by
  rw [byteLength, List.foldl_cons, foldl_utf8Size, Nat.zero_add]

theorem length_le_byteLength (cs : List Char) : cs.length ≤ byteLength cs := by
  induction cs with
  | nil => simp [byteLength]
  | cons c cs ih =>
    have := Char.utf8Size_pos c
    rw [byteLength_cons, List.length_cons]
    omega

/-! ## Fronts up to a byte -/

open String.Pos

/-- The front of a text before the byte `n`, unless that byte is inside a character or behind the
end. -/
def front? (s : String) (n : Nat) : Option String :=
  if h : Raw.IsValid s ⟨n⟩ then some (s.sliceTo (s.pos ⟨n⟩ h)).copy else none

/-- Goes back from the byte `n` to the next one where a character begins or the text ends. -/
def lastBoundary (s : String) : Nat → Nat
  | 0 => 0
  | n + 1 => if Raw.isValid s ⟨n + 1⟩ then n + 1 else lastBoundary s n

variable {s front : String} {m n : Nat}

/-- A boundary is where a front ends. -/
theorem isValid_iff_exists_front :
    Raw.IsValid s ⟨n⟩ ↔ ∃ front rest, s = front ++ rest ∧ front.utf8ByteSize = n := by
  simp only [Raw.isValid_iff_exists_append, Raw.ext_iff, String.byteIdx_rawEndPos, eq_comm (a := n)]

theorem front?_eq_some_iff :
    front? s n = some front ↔ ∃ rest, s = front ++ rest ∧ front.utf8ByteSize = n := by
  unfold front?
  split
  case isTrue h =>
    have hsplits : ∀ rest, (s.pos ⟨n⟩ h).Splits front rest ↔
        s = front ++ rest ∧ front.utf8ByteSize = n := fun rest =>
      ⟨fun ⟨happend, hoffset⟩ => ⟨happend, (congrArg Raw.byteIdx hoffset).symm⟩,
        fun ⟨happend, hsize⟩ => ⟨happend, Raw.ext hsize.symm⟩⟩
    simp only [Option.some_inj, String.copy_sliceTo_eq_iff_exists_splits, hsplits]
  case isFalse h =>
    simp only [reduceCtorEq, false_iff]
    exact fun ⟨rest, hfront⟩ => h (isValid_iff_exists_front.2 ⟨front, rest, hfront⟩)

theorem lastBoundary_le (s : String) (n : Nat) : lastBoundary s n ≤ n := by
  induction n with
  | zero => exact Nat.le_refl 0
  | succ n ih =>
    unfold lastBoundary
    split
    · exact Nat.le_refl _
    · exact Nat.le_succ_of_le ih

/-- The first byte is a boundary, so that the way back ends at one. -/
theorem isValid_lastBoundary (s : String) (n : Nat) : Raw.IsValid s ⟨lastBoundary s n⟩ := by
  induction n with
  | zero => exact isValid_iff_exists_front.2 ⟨"", s, by simp, rfl⟩
  | succ n ih =>
    unfold lastBoundary
    split
    case isTrue h => exact Raw.isValid_eq_true_iff.1 h
    case isFalse => exact ih

/-- The way back passes no boundary. -/
theorem le_lastBoundary (hm : Raw.IsValid s ⟨m⟩) (h : m ≤ n) : m ≤ lastBoundary s n := by
  induction n with
  | zero => exact h
  | succ n ih =>
    unfold lastBoundary
    split
    case isTrue => exact h
    case isFalse hinvalid =>
      have hne : m ≠ n + 1 := by
        rintro rfl
        exact hinvalid (Raw.isValid_eq_true_iff.2 hm)
      exact ih (by omega)

end QueryClient.Text
