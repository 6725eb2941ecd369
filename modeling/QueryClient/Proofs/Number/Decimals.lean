/-
  Decimal numbers read back from their texts.

  * `Decimal.Fits` holds of the decimals that can be held;
  * `Reading.run_whole` and `Reading.run_fraction`: digits are read one after the other while what
    they spell can be held;
  * `Decimal.Fits.parse?_toText`: a decimal is read back from its text, but for the sign of zero.
-/
import QueryClient.Number.Decimal
import QueryClient.Proofs.Number.Digits

namespace QueryClient.Number

open QueryClient.Text

/-! ## Digits and their values -/

theorem natOfDigits_cons (n : ℕ) (c : Char) (ds : List Char) :
    natOfDigits n (c :: ds) = natOfDigits (10 * n + (c.toNat - 48)) ds := List.foldl_cons ..

theorem le_natOfDigits (n : ℕ) (ds : List Char) : n ≤ natOfDigits n ds := by
  induction ds generalizing n with
  | nil => exact Nat.le_refl n
  | cons c ds ih =>
    have h := ih (10 * n + (c.toNat - 48))
    rw [natOfDigits_cons]
    omega

namespace Decimal

/-- A decimal that can be held: at most 96 bits and 28 places. -/
structure Fits (d : Decimal) : Prop where
  coefficient_lt : d.coefficient < bound
  scale_le : d.scale ≤ maxScale

/-! ## Reading -/

namespace Reading

/-- The reading after one more digit. -/
def next (r : Reading) (c : Char) : Reading :=
  { r with coefficient := 10 * r.coefficient + (c.toNat - 48),
           scale := r.scale + (if r.point then 1 else 0), digit := true }

theorem run_cons_digit {negative : Bool} {r : Reading} {c : Char} (hc : c.isDigit)
    (rest : List Char) (hroom : ¬ (r.digit ∧ r.point ∧ maxScale ≤ r.scale))
    (hfits : 10 * r.coefficient + (c.toNat - 48) < bound) :
    run negative r (c :: rest) = run negative (r.next c) rest := by
  have hpoint : c ≠ '.' := by rintro rfl; exact absurd hc (by decide)
  have hunderscore : c ≠ '_' := by rintro rfl; exact absurd hc (by decide)
  rw [run, if_neg hroom]
  · rw [digitValue?_of_isDigit hc]
    dsimp only
    rw [if_pos hfits]
    rfl
  · exact hpoint
  · exact hunderscore

/-- The digits before the point. -/
theorem run_whole (negative : Bool) {ds : List Char} (hds : ∀ c ∈ ds, c.isDigit)
    (r : Reading) (hpoint : r.point = false) (hfits : natOfDigits r.coefficient ds < bound)
    (rest : List Char) : run negative r (ds ++ rest) = run negative
      { r with coefficient := natOfDigits r.coefficient ds, digit := r.digit || !ds.isEmpty }
      rest := by
  induction ds generalizing r with
  | nil =>
    obtain ⟨coefficient, scale, point, digit⟩ := r
    rw [List.isEmpty_nil, Bool.not_true, Bool.or_false]
    rfl
  | cons c ds ih =>
    obtain ⟨hc, hds⟩ := List.forall_mem_cons.1 hds
    rw [natOfDigits_cons] at hfits
    have hfirst := Nat.lt_of_le_of_lt (le_natOfDigits _ _) hfits
    have hroom : ¬ (r.digit ∧ r.point ∧ maxScale ≤ r.scale) := fun h => by simp [hpoint] at h
    rw [List.cons_append, run_cons_digit hc _ hroom hfirst, ih hds (r.next c) hpoint hfits]
    simp [next, hpoint, natOfDigits_cons]

/-- The digits after the point. -/
theorem run_fraction (negative : Bool) {ds : List Char} (hds : ∀ c ∈ ds, c.isDigit)
    (r : Reading) (hpoint : r.point) (hdigit : r.digit)
    (hfits : natOfDigits r.coefficient ds < bound) (hscale : r.scale + ds.length ≤ maxScale) :
    run negative r ds =
      some (make negative (natOfDigits r.coefficient ds) (r.scale + ds.length)) := by
  induction ds generalizing r with
  | nil => exact if_pos hdigit
  | cons c ds ih =>
    obtain ⟨hc, hds⟩ := List.forall_mem_cons.1 hds
    rw [natOfDigits_cons] at hfits
    rw [List.length_cons] at hscale
    have hfirst := Nat.lt_of_le_of_lt (le_natOfDigits _ _) hfits
    have hroom : ¬ (r.digit ∧ r.point ∧ maxScale ≤ r.scale) := fun h => by omega
    have hnext : (r.next c).scale = r.scale + 1 := by rw [next, hpoint]; rfl
    rw [run_cons_digit hc _ hroom hfirst, ih hds (r.next c) hpoint rfl hfits (by omega), hnext,
      List.length_cons, natOfDigits_cons, Nat.add_assoc, Nat.add_comm 1]
    rfl

theorem run_whole_end (negative : Bool) {ds : List Char} (hds : ∀ c ∈ ds, c.isDigit)
    (hsome : ds ≠ []) (hfits : natOfDigits 0 ds < bound) :
    run negative {} ds = some (make negative (natOfDigits 0 ds) 0) := by
  have hdigit : ((false || !ds.isEmpty) : Bool) := by
    rw [List.isEmpty_eq_false_iff.2 hsome]
    rfl
  have hend := run_whole negative hds {} rfl hfits []
  rw [List.append_nil] at hend
  rw [hend]
  exact if_pos hdigit

theorem run_point (negative : Bool) {whole fraction : List Char} (hwhole : ∀ c ∈ whole, c.isDigit)
    (hsome : whole ≠ []) (hfraction : ∀ c ∈ fraction, c.isDigit)
    (hscale : fraction.length ≤ maxScale)
    (hfits : natOfDigits (natOfDigits 0 whole) fraction < bound) :
    run negative {} (whole ++ '.' :: fraction) =
      some (make negative (natOfDigits (natOfDigits 0 whole) fraction) fraction.length) := by
  have hdigit : ((false || !whole.isEmpty) : Bool) := by
    rw [List.isEmpty_eq_false_iff.2 hsome]
    rfl
  have hfront : natOfDigits 0 whole < bound := Nat.lt_of_le_of_lt (le_natOfDigits _ _) hfits
  have hpoint : ∀ r : Reading, r.point = false →
      run negative r ('.' :: fraction) = run negative { r with point := true } fraction := by
    intro r hr
    rw [run, if_neg fun h => by simp [hr] at h, if_neg (by simp [hr])]
  rw [run_whole negative hwhole {} rfl hfront, hpoint _ rfl,
    run_fraction negative hfraction _ rfl hdigit hfits (by simpa using hscale)]
  exact congrArg (fun n => some (make negative _ n)) (Nat.zero_add _)

end Reading

/-! ## Texts -/

/-- The text of a decimal without its sign. -/
def body (d : Decimal) : List Char :=
  let ds := d.paddedDigits
  let whole := ds.take (ds.length - d.scale)
  if d.scale = 0 then whole else whole ++ '.' :: ds.drop (ds.length - d.scale)

theorem paddedDigits_eq (d : Decimal) :
    d.paddedDigits = Calendar.padded (d.scale + 1) d.coefficient := rfl

theorem isDigit_of_mem_paddedDigits {d : Decimal} {c : Char} (h : c ∈ d.paddedDigits) : c.isDigit :=
  isDigit_of_mem_padded h

theorem scale_lt_length (d : Decimal) : d.scale < d.paddedDigits.length := by
  rw [paddedDigits, List.length_append, List.length_replicate]
  omega

/-- The digits around the point are those of the coefficient. -/
theorem natOfDigits_whole_fraction (d : Decimal) :
    natOfDigits (natOfDigits 0 (d.paddedDigits.take (d.paddedDigits.length - d.scale)))
      (d.paddedDigits.drop (d.paddedDigits.length - d.scale)) = d.coefficient := by
  rw [← natOfDigits_append, List.take_append_drop, paddedDigits_eq, natOfDigits_padded]

theorem Fits.run_body {d : Decimal} (h : d.Fits) (negative : Bool) :
    Reading.run negative {} d.body = some (make negative d.coefficient d.scale) := by
  have hsplit := d.natOfDigits_whole_fraction
  have hlt := d.scale_lt_length
  have hwhole : ∀ c ∈ d.paddedDigits.take (d.paddedDigits.length - d.scale), c.isDigit :=
    fun c hc => isDigit_of_mem_paddedDigits (List.mem_of_mem_take hc)
  have hfraction : ∀ c ∈ d.paddedDigits.drop (d.paddedDigits.length - d.scale), c.isDigit :=
    fun c hc => isDigit_of_mem_paddedDigits (List.mem_of_mem_drop hc)
  have hsome : d.paddedDigits.take (d.paddedDigits.length - d.scale) ≠ [] := by
    rw [← List.length_pos_iff, List.length_take]
    omega
  have hlength : (d.paddedDigits.drop (d.paddedDigits.length - d.scale)).length = d.scale := by
    rw [List.length_drop]
    omega
  have hfits : natOfDigits 0 (d.paddedDigits.take (d.paddedDigits.length - d.scale)) < bound := by
    refine Nat.lt_of_le_of_lt ?_ h.coefficient_lt
    rw [← hsplit]
    exact le_natOfDigits _ _
  unfold body
  dsimp only
  split_ifs with hscale
  · have hnone : d.paddedDigits.drop (d.paddedDigits.length - d.scale) = [] :=
      List.eq_nil_of_length_eq_zero (hlength.trans hscale)
    rw [hnone] at hsplit
    rw [Reading.run_whole_end negative hwhole hsome hfits, hscale]
    exact congrArg (fun n => some (make negative n 0)) (hscale ▸ hsplit)
  · rw [Reading.run_point negative hwhole hsome hfraction (by rw [hlength]; exact h.scale_le)
      (by rw [hsplit]; exact h.coefficient_lt), hsplit, hlength]

theorem toText_eq (d : Decimal) :
    d.toText = String.ofList (if d.negative then '-' :: d.body else d.body) := rfl

theorem mem_body {d : Decimal} {c : Char} (h : c ∈ d.body) : c.isDigit ∨ c = '.' := by
  unfold body at h
  dsimp only at h
  split_ifs at h
  · exact Or.inl (isDigit_of_mem_paddedDigits (List.mem_of_mem_take h))
  · simp only [List.mem_append, List.mem_cons] at h
    rcases h with h | h | h
    · exact Or.inl (isDigit_of_mem_paddedDigits (List.mem_of_mem_take h))
    · exact Or.inr h
    · exact Or.inl (isDigit_of_mem_paddedDigits (List.mem_of_mem_drop h))

theorem exists_body_cons (d : Decimal) : ∃ c cs, d.body = c :: cs ∧ c.isDigit := by
  have hlt := d.scale_lt_length
  obtain ⟨c, cs, hwhole⟩ : ∃ c cs,
      d.paddedDigits.take (d.paddedDigits.length - d.scale) = c :: cs := by
    refine List.exists_cons_of_ne_nil ?_
    rw [← List.length_pos_iff, List.length_take]
    omega
  have hc : c.isDigit :=
    isDigit_of_mem_paddedDigits (List.mem_of_mem_take (hwhole ▸ List.mem_cons_self))
  unfold body
  dsimp only
  rw [hwhole]
  split_ifs
  · exact ⟨c, cs, rfl, hc⟩
  · exact ⟨c, _, List.cons_append, hc⟩

theorem trim_toText (d : Decimal) : trim d.toText = d.toText := by
  have hbody : ∀ c ∈ d.body, isBlank c = false := by
    intro c hc
    rcases mem_body hc with hc | rfl
    · exact not_isBlank_of_isDigit hc
    · rfl
  rw [toText_eq]
  refine trim_ofList fun c hc => ?_
  split_ifs at hc
  · rcases List.mem_cons.1 hc with rfl | hc
    · rfl
    · exact hbody c hc
  · exact hbody c hc

/-- **A decimal is read back from its text**; only zero loses its sign. -/
theorem Fits.parse?_toText {d : Decimal} (h : d.Fits) :
    parse? d.toText = some (make d.negative d.coefficient d.scale) := by
  have hread : ofText? (if d.negative then '-' :: d.body else d.body) =
      some (make d.negative d.coefficient d.scale) := by
    cases hsign : d.negative with
    | true => exact h.run_body true
    | false =>
      obtain ⟨c, cs, hcons, hc⟩ := d.exists_body_cons
      have hrun := h.run_body false
      rw [if_neg Bool.false_ne_true]
      rw [hcons] at hrun ⊢
      unfold ofText?
      split
      · next heq =>
        rw [(List.cons.inj heq).1] at hc
        exact absurd hc (by decide)
      · next heq =>
        rw [(List.cons.inj heq).1] at hc
        exact absurd hc (by decide)
      · exact hrun
  rw [toText_eq, parse?, String.toList_ofList, hread]
  rfl

/-- What is read back is the decimal itself, unless it is a negative zero. -/
theorem make_eq_self {d : Decimal} (h : d.coefficient = 0 → d.negative = false) :
    make d.negative d.coefficient d.scale = d := by
  have hsign : (d.negative && d.coefficient != 0) = d.negative := by
    by_cases hzero : d.coefficient = 0
    · rw [h hzero, Bool.false_and]
    · rw [bne_iff_ne.2 hzero, Bool.and_true]
  rw [make, hsign]

end Decimal

end QueryClient.Number
