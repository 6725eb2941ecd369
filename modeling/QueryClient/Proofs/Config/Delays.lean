/-
  Delays before retries.

  `RetryPolicy.delayFor` is exact up to the longest span.  On words of 32 and 64 bits, the shift
  that gives the factor, the product of each part of the span with it and the sum of the seconds can
  each be too large.

  * `Duration.Words` is a span on words, and `Duration.Words.delay?` the delay computed on words,
    which gives nothing if an operation fails that has no other way out;
  * `Duration.Words.exists_delay?`: none does, and the result is exact;
  * `RetryPolicy.delayFor_nanos`: the delay in closed form;
  * `RetryPolicy.delayFor_spec`: also how it grows with the retries and with the first delay.
-/
import QueryClient.Config.Basic
import Mathlib.Algebra.Order.Ring.Nat

namespace QueryClient

namespace Duration

theorem max_nanos : max.nanos = 2 ^ 64 * 1000000000 - 1 := by decide

/-! ## Operations on words -/

/-- A product, unless it is too large. -/
def product? (a b : UInt64) : Option UInt64 :=
  if a.toNat * b.toNat < 2 ^ 64 then some (a * b) else none

/-- A sum, unless it is too large. -/
def sum? (a b : UInt64) : Option UInt64 :=
  if a.toNat + b.toNat < 2 ^ 64 then some (a + b) else none

/-- A shift to the left, unless it is by all bits. -/
def shift? (a n : UInt32) : Option UInt32 :=
  if n.toNat < 32 then some (a <<< n) else none

section
variable {a b : UInt64}

theorem product?_of_lt (h : a.toNat * b.toNat < 2 ^ 64) :
    ∃ c, product? a b = some c ∧ c.toNat = a.toNat * b.toNat := by
  refine ⟨a * b, if_pos h, ?_⟩
  rw [UInt64.toNat_mul, Nat.mod_eq_of_lt h]

theorem product?_of_le (h : 2 ^ 64 ≤ a.toNat * b.toNat) : product? a b = none :=
  if_neg (Nat.not_lt.2 h)

theorem sum?_of_lt (h : a.toNat + b.toNat < 2 ^ 64) :
    ∃ c, sum? a b = some c ∧ c.toNat = a.toNat + b.toNat := by
  refine ⟨a + b, if_pos h, ?_⟩
  rw [UInt64.toNat_add, Nat.mod_eq_of_lt h]

theorem sum?_of_le (h : 2 ^ 64 ≤ a.toNat + b.toNat) : sum? a b = none :=
  if_neg (Nat.not_lt.2 h)

end

/-! ## Spans on words -/

/-- Seconds, and the nanoseconds beyond them. -/
structure Words where
  secs : UInt64
  nanos : UInt32
  nanos_lt : nanos.toNat < 1000000000

namespace Words

/-- The span of some words. -/
def span (w : Words) : Duration := ⟨w.secs.toNat * 1000000000 + w.nanos.toNat⟩

/-- The words of the longest span. -/
def longest : Words := ⟨18446744073709551615, 999999999, by decide⟩

theorem span_nanos (w : Words) : w.span.nanos = w.secs.toNat * 1000000000 + w.nanos.toNat := rfl

theorem span_longest : longest.span = max := by decide

theorem span_le (w : Words) : w.span.nanos ≤ max.nanos := by
  have hsecs := w.secs.toNat_lt
  have hnanos := w.nanos_lt
  rw [max_nanos, span_nanos]
  omega

/-- Every span that is not longer than the longest has words. -/
theorem exists_span {d : Duration} (h : d.nanos ≤ max.nanos) : ∃ w : Words, w.span = d := by
  rw [max_nanos] at h
  have hsecs : (UInt64.ofNat (d.nanos / 1000000000)).toNat = d.nanos / 1000000000 := by
    rw [UInt64.toNat_ofNat', Nat.mod_eq_of_lt (by omega)]
  have hnanos : (UInt32.ofNat (d.nanos % 1000000000)).toNat = d.nanos % 1000000000 := by
    rw [UInt32.toNat_ofNat', Nat.mod_eq_of_lt (by omega)]
  refine ⟨⟨.ofNat (d.nanos / 1000000000), .ofNat (d.nanos % 1000000000), by omega⟩, ?_⟩
  rw [span, hsecs, hnanos, Nat.div_add_mod']

/-- Words of seconds and nanoseconds, of which a second's worth are carried over. -/
def carry? (secs : UInt64) (nanos : UInt32) : Option Words :=
  if h : nanos.toNat < 1000000000 then some ⟨secs, nanos, h⟩
  else
    (sum? secs (nanos / 1000000000).toUInt64).map fun secs =>
      ⟨secs, nanos % 1000000000, by rw [UInt32.toNat_mod]; exact Nat.mod_lt _ (by decide)⟩

/-- The seconds of a multiple, with those that its nanoseconds make up. -/
def seconds? (secs factor extra : UInt64) : Option UInt64 :=
  (product? secs factor).bind (sum? · extra)

/-- A multiple, or the longest span if its seconds are too many. -/
def scale? (w : Words) (factor : UInt32) : Option Words := do
  let nanos ← product? w.nanos.toUInt64 factor.toUInt64
  match seconds? w.secs factor.toUInt64 (nanos / 1000000000) with
  | some secs => carry? secs (nanos % 1000000000).toUInt32
  | none => some longest

/-- How many retries came before. -/
def earlier (retry : UInt32) : UInt32 := if retry = 0 then 0 else retry - 1

/-- What the first delay is multiplied by. -/
def factor (retry : UInt32) : UInt32 := (shift? 1 (earlier retry)).getD 4294967295

/-- The delay before a retry, counted from one. -/
def delay? (backoff : Words) (retry : UInt32) : Option Words := backoff.scale? (factor retry)

theorem seconds?_of_lt {secs factor extra : UInt64}
    (h : secs.toNat * factor.toNat + extra.toNat < 2 ^ 64) :
    ∃ s, seconds? secs factor extra = some s ∧
      s.toNat = secs.toNat * factor.toNat + extra.toNat := by
  obtain ⟨p, hp, hpn⟩ := product?_of_lt (Nat.lt_of_le_of_lt (Nat.le_add_right _ _) h)
  rw [← hpn] at h ⊢
  obtain ⟨s, hs, hsn⟩ := sum?_of_lt h
  exact ⟨s, by rw [seconds?, hp, Option.bind_some, hs], hsn⟩

theorem seconds?_of_le {secs factor extra : UInt64}
    (h : 2 ^ 64 ≤ secs.toNat * factor.toNat + extra.toNat) :
    seconds? secs factor extra = none := by
  rcases Nat.lt_or_ge (secs.toNat * factor.toNat) (2 ^ 64) with hlt | hle
  · obtain ⟨p, hp, hpn⟩ := product?_of_lt hlt
    rw [seconds?, hp, Option.bind_some, sum?_of_le (hpn ▸ h)]
  · rw [seconds?, product?_of_le hle, Option.bind_none]

/-- The nanoseconds of a second times a factor of 32 bits fit in 64. -/
theorem exists_product?_nanos (w : Words) (f : UInt32) :
    ∃ n, product? w.nanos.toUInt64 f.toUInt64 = some n ∧ n.toNat = w.nanos.toNat * f.toNat := by
  have hfits : w.nanos.toUInt64.toNat * f.toUInt64.toNat < 2 ^ 64 := by
    rw [UInt32.toNat_toUInt64, UInt32.toNat_toUInt64]
    calc w.nanos.toNat * f.toNat
      _ ≤ 1000000000 * 2 ^ 32 :=
        Nat.mul_le_mul (Nat.le_of_lt w.nanos_lt) (Nat.le_of_lt f.toNat_lt)
      _ < 2 ^ 64 := by decide
  simpa only [UInt32.toNat_toUInt64] using product?_of_lt hfits

theorem toNat_rest (n : UInt64) :
    (n % 1000000000).toUInt32.toNat = n.toNat % 1000000000 := by
  have hlt := Nat.mod_lt n.toNat (show 0 < 1000000000 by decide)
  have hmod : (n % 1000000000).toNat = n.toNat % 1000000000 := UInt64.toNat_mod ..
  rw [UInt64.toNat_toUInt32, hmod, Nat.mod_eq_of_lt (Nat.lt_trans hlt (by decide))]

/-- **A multiple on words never fails**, and is the exact one or the longest span. -/
theorem exists_scale? (w : Words) (f : UInt32) :
    ∃ w', w.scale? f = some w' ∧ w'.span = w.span.scale f.toNat := by
  obtain ⟨n, hproduct, hn⟩ := exists_product?_nanos w f
  have hextra : (n / 1000000000).toNat = n.toNat / 1000000000 := UInt64.toNat_div ..
  have hrest : (n % 1000000000).toUInt32.toNat < 1000000000 := by
    rw [toNat_rest]
    exact Nat.mod_lt _ (by decide)
  have hexact : w.span.nanos * f.toNat = (w.secs.toNat * f.toUInt64.toNat +
      (n / 1000000000).toNat) * 1000000000 + (n % 1000000000).toUInt32.toNat := by
    rw [toNat_rest, UInt32.toNat_toUInt64, hextra, Nat.add_mul, Nat.add_assoc, Nat.div_add_mod',
      hn, span_nanos, Nat.add_mul, Nat.mul_right_comm]
  rw [scale?, hproduct, Option.bind_eq_bind, Option.bind_some, Duration.scale, hexact]
  rcases Nat.lt_or_ge (w.secs.toNat * f.toUInt64.toNat + (n / 1000000000).toNat) (2 ^ 64)
    with hshort | hlong
  · obtain ⟨secs, hsome, hsecs⟩ := seconds?_of_lt hshort
    let w' : Words := ⟨secs, (n % 1000000000).toUInt32, hrest⟩
    refine ⟨w', by simp only [hsome]; exact dif_pos hrest, ?_⟩
    rw [← hsecs]
    exact congrArg Duration.mk (Nat.min_eq_left w'.span_le).symm
  · refine ⟨longest, by simp only [seconds?_of_le hlong], ?_⟩
    rw [span_longest]
    have hmax := max_nanos
    exact congrArg Duration.mk (Nat.min_eq_right (show max.nanos ≤ _ by omega)).symm

theorem toNat_earlier (r : UInt32) : (earlier r).toNat = r.toNat - 1 := by
  rw [earlier]
  split_ifs with hr
  · rw [hr]
    rfl
  · have hpos : r.toNat ≠ 0 := fun h => hr (UInt32.toNat_inj.1 h)
    exact UInt32.toNat_sub_of_le _ _ (UInt32.le_iff_toNat_le.2 (Nat.one_le_iff_ne_zero.2 hpos))

theorem toNat_factor (r : UInt32) : (factor r).toNat =
    if r.toNat - 1 < 32 then Nat.pow 2 (r.toNat - 1) else Number.unsignedMax 32 := by
  rw [factor, shift?, toNat_earlier]
  split_ifs with h
  · have hlt : 2 ^ (r.toNat - 1) < 2 ^ 32 := Nat.pow_lt_pow_right (by decide) h
    rw [Option.getD_some, UInt32.toNat_shiftLeft, toNat_earlier, Nat.mod_eq_of_lt h,
      UInt32.toNat_one, Nat.one_shiftLeft, Nat.mod_eq_of_lt hlt]
    rfl
  · rfl

/-- **The delay on words never fails** and is the delay. -/
theorem exists_delay? {p : RetryPolicy} {w : Words} (h : w.span = p.backoff) (r : UInt32) :
    ∃ w', w.delay? r = some w' ∧ w'.span = p.delayFor r.toNat := by
  obtain ⟨w', hsome, hspan⟩ := w.exists_scale? (factor r)
  exact ⟨w', hsome, by rw [hspan, toNat_factor, h, RetryPolicy.delayFor]⟩

end Words

end Duration

/-! ## Growth -/

namespace RetryPolicy
variable {p q : RetryPolicy} {retry later : ℕ}

/-- **The delay in closed form.** -/
theorem delayFor_nanos (p : RetryPolicy) (retry : ℕ) : (p.delayFor retry).nanos =
    min (p.backoff.nanos * min (2 ^ (max retry 1 - 1)) (2 ^ 32 - 1)) Duration.max.nanos := by
  have hfactor : (if retry - 1 < 32 then Nat.pow 2 (retry - 1) else Number.unsignedMax 32) =
      min (2 ^ (max retry 1 - 1)) (2 ^ 32 - 1) := by
    have hretry : max retry 1 - 1 = retry - 1 := by omega
    have hmax : Number.unsignedMax 32 = 2 ^ 32 - 1 := by decide
    rw [hretry, hmax, Nat.pow_eq]
    split_ifs with h
    · have hle : 2 ^ (retry - 1) < 2 ^ 32 := Nat.pow_lt_pow_right (by decide) h
      exact (Nat.min_eq_left (by omega)).symm
    · have hle : 2 ^ 32 ≤ 2 ^ (retry - 1) := Nat.pow_le_pow_right (by decide) (Nat.not_lt.1 h)
      exact (Nat.min_eq_right (by omega)).symm
  rw [delayFor, hfactor]
  rfl

theorem delayFor_le (p : RetryPolicy) (retry : ℕ) :
    (p.delayFor retry).nanos ≤ Duration.max.nanos := by
  rw [delayFor_nanos]
  exact Nat.min_le_right _ _

theorem delayFor_mono (hp : p.backoff.nanos ≤ q.backoff.nanos) (hretry : retry ≤ later) :
    (p.delayFor retry).nanos ≤ (q.delayFor later).nanos := by
  rw [delayFor_nanos, delayFor_nanos]
  have hpow : 2 ^ (max retry 1 - 1) ≤ 2 ^ (max later 1 - 1) :=
    Nat.pow_le_pow_right (by decide) (by omega)
  have hfactor : min (2 ^ (max retry 1 - 1)) (2 ^ 32 - 1) ≤
      min (2 ^ (max later 1 - 1)) (2 ^ 32 - 1) := by omega
  have hproduct := Nat.mul_le_mul hp hfactor
  omega

/-- As long as the factor fits, the next delay is twice as long. -/
theorem delayFor_succ (hpos : 1 ≤ retry) (hfits : retry < 32) : (p.delayFor (retry + 1)).nanos =
    min (2 * (p.delayFor retry).nanos) Duration.max.nanos := by
  obtain ⟨n, rfl⟩ := Nat.exists_eq_add_of_le' hpos
  have hfactor : ∀ m < 32, min (2 ^ m) (2 ^ 32 - 1) = 2 ^ m := fun m hm => by
    have := Nat.pow_lt_pow_right (show 1 < 2 by decide) hm
    exact Nat.min_eq_left (by omega)
  have hn : max (n + 1) 1 - 1 = n := by omega
  have hn' : max (n + 1 + 1) 1 - 1 = n + 1 := by omega
  rw [delayFor_nanos, delayFor_nanos, hn, hn', hfactor n (by omega), hfactor (n + 1) hfits,
    Nat.pow_succ']
  generalize hspan : p.backoff.nanos * 2 ^ n = span
  rw [Nat.mul_left_comm, hspan]
  omega

/-- Once the factor is the greatest, the delays stay the same. -/
theorem delayFor_eq (hretry : 33 ≤ retry) (hlater : 33 ≤ later) :
    p.delayFor retry = p.delayFor later := by
  rw [delayFor, delayFor]
  simp only [show ¬ retry - 1 < 32 by omega, show ¬ later - 1 < 32 by omega, if_false]

/-- **Delays.**  For every first delay and every retry, the delay is the first delay times the power
of two of the retries before, which is at most the greatest number of 32 bits, and at most the
longest span.  On words, which every span up to the longest has, it is computed without a failure.
It does not become shorter with a later retry or a longer first delay.  From one retry to the next
it doubles until the factor or the span is the greatest, and after that it stays the same. -/
theorem delayFor_spec (p : RetryPolicy) (retry : ℕ) :
    (p.delayFor retry).nanos =
      min (p.backoff.nanos * min (2 ^ (max retry 1 - 1)) (2 ^ 32 - 1)) Duration.max.nanos ∧
    ((∃ w : Duration.Words, w.span = p.backoff) ↔ p.backoff.nanos ≤ Duration.max.nanos) ∧
    (∀ (w : Duration.Words) (r : UInt32), w.span = p.backoff → r.toNat = retry →
      ∃ w', w.delay? r = some w' ∧ w'.span = p.delayFor retry) ∧
    (∀ (q : RetryPolicy) (later : ℕ), p.backoff.nanos ≤ q.backoff.nanos → retry ≤ later →
      (p.delayFor retry).nanos ≤ (q.delayFor later).nanos) ∧
    (1 ≤ retry → retry < 32 → (p.delayFor (retry + 1)).nanos =
      min (2 * (p.delayFor retry).nanos) Duration.max.nanos) ∧
    (33 ≤ retry ∨ p.delayFor retry = Duration.max → ∀ later ≥ retry,
      p.delayFor later = p.delayFor retry) := by
  refine ⟨p.delayFor_nanos retry, ⟨?_, Duration.Words.exists_span⟩, ?_,
    fun q later => delayFor_mono, delayFor_succ, ?_⟩
  · rintro ⟨w, hw⟩
    exact hw ▸ w.span_le
  · rintro w r hw rfl
    exact Duration.Words.exists_delay? hw r
  · rintro (hretry | hmax) later hlater
    · exact delayFor_eq (Nat.le_trans hretry hlater) hretry
    · have hle := delayFor_mono (Nat.le_refl p.backoff.nanos) hlater
      rw [hmax] at hle ⊢
      exact congrArg Duration.mk (Nat.le_antisymm (p.delayFor_le later) hle)

/-- A second doubles, and becomes as many seconds as 32 bits hold. -/
theorem delayFor_spec_of_second :
    ((⟨100, ⟨1000000000⟩⟩ : RetryPolicy).delayFor 3).nanos =
      min (2 * 2000000000) Duration.max.nanos ∧
    (∃ w', (⟨1, 0, by decide⟩ : Duration.Words).delay? 64 = some w' ∧
      w'.span = ⟨4294967295000000000⟩) ∧
    ∀ later ≥ 64, (⟨100, ⟨1000000000⟩⟩ : RetryPolicy).delayFor later = ⟨4294967295000000000⟩ := by
  refine ⟨?_, ?_, ?_⟩
  · exact (delayFor_spec _ 2).2.2.2.2.1 (by decide) (by decide)
  · exact (delayFor_spec ⟨100, ⟨1000000000⟩⟩ 64).2.2.1 _ 64 rfl rfl
  · exact (delayFor_spec _ 64).2.2.2.2.2 (Or.inl (by decide))

end RetryPolicy

end QueryClient
