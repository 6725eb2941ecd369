/-
  Whole numbers and texts read back from their bytes.

  * `toNat_ofNat` and `toInt_ofInt`: a number that fits its bytes is the one that they spell;
  * `toNat_lt`, `le_toInt` and `toInt_lt`: some bytes spell no number that does not fit them;
  * `text?_eq_some_iff`: a text and its bytes determine each other.
-/
import QueryClient.Bytes
import Mathlib.Algebra.Order.Ring.Nat
import Mathlib.Data.List.Induction

namespace QueryClient.Bytes

/-! ## Natural numbers -/

@[simp] theorem length_ofNat (width n : ℕ) : (ofNat width n).length = width := by
  induction width generalizing n with
  | zero => rfl
  | succ w ih => rw [ofNat, List.length_append, ih, List.length_singleton]

theorem toNat_append_singleton (bytes : List UInt8) (b : UInt8) :
    toNat (bytes ++ [b]) = 256 * toNat bytes + b.toNat := by
  rw [toNat, List.foldl_append]
  rfl

theorem toNat_ofNat (width n : ℕ) : toNat (ofNat width n) = n % 256 ^ width := by
  induction width generalizing n with
  | zero => rw [Nat.pow_zero, Nat.mod_one]; rfl
  | succ w ih =>
    have hbyte : (UInt8.ofNat n).toNat = n % 256 := UInt8.toNat_ofNat'
    rw [ofNat, toNat_append_singleton, ih, hbyte, Nat.pow_succ', Nat.mod_mul]
    exact Nat.add_comm _ _

theorem toNat_ofNat_of_lt {width n : ℕ} (h : n < 256 ^ width) : toNat (ofNat width n) = n := by
  rw [toNat_ofNat, Nat.mod_eq_of_lt h]

theorem toNat_lt (bytes : List UInt8) : toNat bytes < 256 ^ bytes.length := by
  induction bytes using List.reverseRecOn with
  | nil => exact Nat.one_pos
  | append_singleton bytes b ih =>
    have hb : b.toNat < 256 := b.toNat_lt
    rw [toNat_append_singleton, List.length_append, List.length_singleton, Nat.pow_succ]
    omega

theorem nat?_ofNat {width n : ℕ} (h : n < 256 ^ width) : nat? width (ofNat width n) = some n := by
  rw [nat?, if_pos (length_ofNat width n), toNat_ofNat_of_lt h]

theorem lt_of_nat? {width n : ℕ} {bytes : List UInt8} (h : nat? width bytes = some n) :
    n < 256 ^ width := by
  unfold nat? at h
  split_ifs at h with hlength
  cases h
  exact hlength ▸ toNat_lt bytes

/-! ## Integers -/

@[simp] theorem length_ofInt (width : ℕ) (i : ℤ) : (ofInt width i).length = width :=
  length_ofNat width _

/-- A natural number that fits its bytes is written as one. -/
theorem ofInt_natCast {width n : ℕ} (h : n < 256 ^ width) : ofInt width n = ofNat width n := by
  have hpow : Nat.pow 256 width = 256 ^ width := rfl
  have hmod : (n : ℤ) % (256 ^ width : ℕ) = n :=
    Int.emod_eq_of_lt (Int.natCast_nonneg n) (Int.ofNat_lt.2 h)
  rw [ofInt, hpow, hmod, Int.toNat_natCast]

theorem pow_pos_256 (width : ℕ) : 0 < 256 ^ width := Nat.pow_pos (by decide)

/-- An integer that fits its bytes, as two's complement, is the one that they spell. -/
theorem toInt_ofInt {width : ℕ} {i : ℤ} (hlow : -(256 ^ width : ℕ) ≤ 2 * i)
    (hhigh : 2 * i < (256 ^ width : ℕ)) : toInt (ofInt width i) = i := by
  have hpow : Nat.pow 256 width = 256 ^ width := rfl
  have hpos := pow_pos_256 width
  have hnat : toNat (ofInt width i) = (i % (256 ^ width : ℕ)).toNat := by
    rw [ofInt, toNat_ofNat, hpow, Nat.mod_eq_of_lt]
    have := Int.emod_lt_of_pos i (Int.natCast_pos.2 hpos)
    omega
  unfold toInt
  simp only [hnat, length_ofInt, hpow]
  generalize 256 ^ width = n at *
  rcases Int.lt_or_le i 0 with hi | hi
  · have hmod : i % (n : ℤ) = i + n := by
      rw [← Int.add_emod_right, Int.emod_eq_of_lt (by omega) (by omega)]
    rw [hmod, if_neg (by omega)]
    omega
  · rw [Int.emod_eq_of_lt hi (by omega), if_pos (by omega)]
    omega

/-- A natural number that leaves the sign alone is read as it is. -/
theorem toInt_ofNat {width n : ℕ} (h : 2 * n < 256 ^ width) : toInt (ofNat width n) = n := by
  have hpow : Nat.pow 256 width = 256 ^ width := rfl
  unfold toInt
  rw [toNat_ofNat_of_lt (by omega), length_ofNat, hpow, if_pos h]

theorem le_toInt (bytes : List UInt8) : -(256 ^ bytes.length : ℕ) ≤ 2 * toInt bytes := by
  have hpow : Nat.pow 256 bytes.length = 256 ^ bytes.length := rfl
  unfold toInt
  dsimp only
  rw [hpow]
  split_ifs <;> omega

theorem toInt_lt (bytes : List UInt8) : 2 * toInt bytes < (256 ^ bytes.length : ℕ) := by
  have hlt := toNat_lt bytes
  have hpow : Nat.pow 256 bytes.length = 256 ^ bytes.length := rfl
  unfold toInt
  dsimp only
  rw [hpow]
  split_ifs <;> omega

theorem int?_ofInt {width : ℕ} {i : ℤ} (hlow : -(256 ^ width : ℕ) ≤ 2 * i)
    (hhigh : 2 * i < (256 ^ width : ℕ)) : int? width (ofInt width i) = some i := by
  rw [int?, if_pos (length_ofInt width i), toInt_ofInt hlow hhigh]

theorem bounds_of_int? {width : ℕ} {i : ℤ} {bytes : List UInt8} (h : int? width bytes = some i) :
    -(256 ^ width : ℕ) ≤ 2 * i ∧ 2 * i < (256 ^ width : ℕ) := by
  unfold int? at h
  split_ifs at h with hlength
  cases h
  rw [← hlength]
  exact ⟨le_toInt bytes, toInt_lt bytes⟩

/-! ## Parts -/

theorem split?_append {width : ℕ} {front : List UInt8} (h : front.length = width)
    (rest : List UInt8) : split? width (front ++ rest) = some (front, rest) := by
  rw [split?, if_pos (by rw [List.length_append]; omega), List.splitAt_eq, ← h, List.take_left,
    List.drop_left]

theorem length_of_split? {width : ℕ} {bytes front rest : List UInt8}
    (h : split? width bytes = some (front, rest)) : front.length = width := by
  unfold split? at h
  split_ifs at h with hle
  rw [List.splitAt_eq] at h
  cases h
  rw [List.length_take]
  omega

/-! ## Texts -/

theorem toList_loop (a : ByteArray) (i : ℕ) (front : List UInt8) :
    ByteArray.toList.loop a i front = front.reverse ++ a.data.toList.drop i := by
  induction i, front using ByteArray.toList.loop.induct a with
  | case1 i front hlt ih =>
    have hi : i < a.data.toList.length := hlt
    have hget : a.get! i = a.data.toList[i] := getElem!_pos a.data i hlt
    rw [ByteArray.toList.loop, if_pos hlt, ih, List.drop_eq_getElem_cons hi, hget,
      List.reverse_cons, List.append_assoc, List.singleton_append]
  | case2 i front hge =>
    have hi : a.data.toList.length ≤ i := Nat.not_lt.1 hge
    rw [ByteArray.toList.loop, if_neg hge, List.drop_eq_nil_of_le hi, List.append_nil]

theorem ofText_eq (s : String) : ofText s = s.toByteArray.data.toList :=
  toList_loop s.toByteArray 0 []

/-- A text has at least as many bytes as characters. -/
theorem length_le_length_ofText (cs : List Char) :
    cs.length ≤ (ofText (String.ofList cs)).length := by
  rw [ofText_eq, String.toByteArray_ofList]
  induction cs with
  | nil => exact Nat.zero_le _
  | cons c cs ih =>
    have hpos := Char.utf8Size_pos c
    have hsize : [c].utf8Encode.data.toList.length = c.utf8Size := by
      rw [List.utf8Encode_singleton]
      simp
    rw [List.utf8Encode_cons, ByteArray.data_append, Array.toList_append, List.length_append,
      hsize, List.length_cons]
    omega

/-- **A text and its bytes determine each other.** -/
theorem text?_eq_some_iff {bytes : List UInt8} {s : String} :
    text? bytes = some s ↔ ofText s = bytes := by
  rw [ofText_eq, text?, String.fromUTF8?]
  constructor
  · intro h
    split_ifs at h
    cases h
    rfl
  · rintro rfl
    exact dif_pos s.isValidUTF8

end QueryClient.Bytes
