/-
  Decimals read back from their binary form.

  * `ofBytes?_toBytes`: the parts of a number are read back from its bytes;
  * `addFractions?_exact`: groups after the point add up to what they spell;
  * `toDecimal?_ofDecimal`: a decimal that is not zero is read back from its parts, and
    `fits_of_toDecimal?`: whatever is read can be held.
-/
import QueryClient.Proofs.Number.Sums
import QueryClient.Proofs.Wire.Bytes
import QueryClient.Wire.Numeric

namespace QueryClient.Wire.Numeric

open QueryClient.Number

/-! ## Bytes -/

/-- Parts that fit the bytes they are written with. -/
structure Sized (n : Numeric) : Prop where
  count : n.groups.length < 256 ^ 2
  low : -(256 ^ 2 : ℕ) ≤ 2 * n.weight
  high : 2 * n.weight < (256 ^ 2 : ℕ)
  sign : n.sign < 256 ^ 2
  places : n.places < 256 ^ 2
  groups : ∀ g ∈ n.groups, g < 256 ^ 2

theorem word?_append {n : ℕ} (h : n < 256 ^ 2) (rest : List UInt8) :
    word? (Bytes.ofNat 2 n ++ rest) = some (n, rest) := by
  rw [word?, Bytes.split?_append (Bytes.length_ofNat 2 n), Option.map_some]
  exact congrArg (fun n => some (n, rest)) (Bytes.toNat_ofNat_of_lt h)

theorem groups?_flatMap {groups : List ℕ} (h : ∀ g ∈ groups, g < 256 ^ 2) :
    groups? groups.length (groups.flatMap (Bytes.ofNat 2)) = some groups := by
  induction groups with
  | nil => rfl
  | cons g groups ih =>
    obtain ⟨hg, hgroups⟩ := List.forall_mem_cons.1 h
    rw [List.length_cons, List.flatMap_cons, groups?, word?_append hg]
    simp only [bind, Option.bind, pure, ih hgroups]

/-- **The parts of a number are read back from its bytes.** -/
theorem ofBytes?_toBytes {n : Numeric} (h : n.Sized) : ofBytes? n.toBytes = some n := by
  have hweight : Bytes.split? 2 (Bytes.ofInt 2 n.weight ++ (Bytes.ofNat 2 n.sign ++
      (Bytes.ofNat 2 n.places ++ n.groups.flatMap (Bytes.ofNat 2)))) = some (Bytes.ofInt 2 n.weight,
        Bytes.ofNat 2 n.sign ++ (Bytes.ofNat 2 n.places ++ n.groups.flatMap (Bytes.ofNat 2))) :=
    Bytes.split?_append (Bytes.length_ofInt 2 n.weight) _
  unfold ofBytes? toBytes
  simp only [List.append_assoc, word?_append h.count, word?_append h.sign, word?_append h.places,
    hweight, bind, Option.bind, pure, groups?_flatMap h.groups, Bytes.toInt_ofInt h.low h.high]

/-! ## Groups and what they spell -/

/-- The number that groups of four digits spell. -/
def spell (groups : List ℕ) : ℕ := groups.foldl (fun n g => 10000 * n + g) 0

theorem foldl_eq (groups : List ℕ) (n : ℕ) :
    groups.foldl (fun n g => 10000 * n + g) n = n * 10000 ^ groups.length + spell groups := by
  induction groups generalizing n with
  | nil => rw [List.foldl_nil, List.length_nil, Nat.pow_zero, Nat.mul_one]; rfl
  | cons g groups ih =>
    rw [spell, List.foldl_cons, List.foldl_cons, ih, ih (10000 * 0 + g), List.length_cons,
      Nat.pow_succ]
    ring

theorem spell_cons (g : ℕ) (groups : List ℕ) :
    spell (g :: groups) = g * 10000 ^ groups.length + spell groups := by
  rw [spell, List.foldl_cons, foldl_eq, Nat.mul_zero, Nat.zero_add]

theorem spell_append (front groups : List ℕ) :
    spell (front ++ groups) = spell front * 10000 ^ groups.length + spell groups := by
  rw [spell, List.foldl_append, foldl_eq, ← spell]

/-- The groups of a number spell it. -/
theorem spell_reverseGroups {fuel n : ℕ} (h : n < 2 ^ fuel) :
    spell (reverseGroups fuel n).reverse = n := by
  induction fuel generalizing n with
  | zero =>
    obtain rfl : n = 0 := by omega
    rfl
  | succ fuel ih =>
    unfold reverseGroups
    split_ifs with hzero
    · rw [hzero]
      rfl
    · have hrest : n / 10000 < 2 ^ fuel := by
        rw [Nat.pow_succ] at h
        omega
      have hlast : spell [n % 10000] = n % 10000 := by
        rw [spell_cons, List.length_nil, Nat.pow_zero, Nat.mul_one]
        rfl
      rw [List.reverse_cons, spell_append, ih hrest, hlast, List.length_singleton, Nat.pow_one]
      exact Nat.div_add_mod' n 10000

theorem lt_of_mem_reverseGroups {fuel n g : ℕ} (h : g ∈ reverseGroups fuel n) : g < 10000 := by
  induction fuel generalizing n with
  | zero => cases h
  | succ fuel ih =>
    unfold reverseGroups at h
    split_ifs at h
    · cases h
    · rcases List.mem_cons.1 h with rfl | h
      · exact Nat.mod_lt _ (by decide)
      · exact ih h

theorem length_reverseGroups_le (fuel n : ℕ) : (reverseGroups fuel n).length ≤ fuel := by
  induction fuel generalizing n with
  | zero => exact Nat.le_refl 0
  | succ fuel ih =>
    unfold reverseGroups
    split_ifs
    · exact Nat.zero_le _
    · exact Nat.succ_le_succ (ih _)

theorem spell_groupsOf (n : ℕ) : spell (groupsOf n) = n :=
  spell_reverseGroups Nat.lt_log2_self

theorem lt_of_mem_groupsOf {n g : ℕ} (h : g ∈ groupsOf n) : g < 10000 :=
  lt_of_mem_reverseGroups (List.mem_reverse.1 h)

theorem length_groupsOf_le (n : ℕ) : (groupsOf n).length ≤ n.log2 + 1 := by
  rw [groupsOf, List.length_reverse]
  exact length_reverseGroups_le _ _

/-! ## Fractions -/

/-- What groups after the point come to in units of the place behind `last` groups, if the first
of them is the group with index `index` after the point. -/
def fractionAmount (last : ℕ) : ℕ → List ℕ → ℕ
  | _, [] => 0
  | index, g :: groups => g * 10 ^ (4 * (last - index)) + fractionAmount last (index + 1) groups

theorem ten_pow_four_mul (n : ℕ) : 10 ^ (4 * n) = 10000 ^ n := by
  rw [Nat.pow_mul]

/-- If the last group is the last one of all, the groups come to what they spell. -/
theorem fractionAmount_eq_spell {last index : ℕ} {groups : List ℕ}
    (h : index + groups.length = last + 1) : fractionAmount last index groups = spell groups := by
  induction groups generalizing index with
  | nil => rfl
  | cons g groups ih =>
    rw [List.length_cons] at h
    have hplace : last - index = groups.length := by omega
    rw [fractionAmount, spell_cons, ih (by omega), hplace, ten_pow_four_mul]

theorem fractionAmount_zeros (last index : ℕ) {zeros : List ℕ} (h : ∀ g ∈ zeros, g = 0) :
    fractionAmount last index zeros = 0 := by
  induction zeros generalizing index with
  | nil => rfl
  | cons g zeros ih =>
    obtain ⟨rfl, hzeros⟩ := List.forall_mem_cons.1 h
    rw [fractionAmount, ih _ hzeros, Nat.zero_mul]

/-- Groups of zeros at the end add nothing. -/
theorem fractionAmount_append_zeros (last index : ℕ) (groups : List ℕ) {zeros : List ℕ}
    (h : ∀ g ∈ zeros, g = 0) :
    fractionAmount last index (groups ++ zeros) = fractionAmount last index groups := by
  induction groups generalizing index with
  | nil => exact fractionAmount_zeros last index h
  | cons g groups ih => rw [List.cons_append, fractionAmount, fractionAmount, ih]

theorem amount_fraction (g : ℕ) {place last : ℕ} (h : place ≤ last) :
    (fraction g place).amount last = g * 10 ^ (last - place) := by
  obtain ⟨hle, hvalue, -⟩ := Decimal.dropZeros_spec g place
  have hfraction : (fraction g place).amount last =
      (Decimal.dropZeros g place).1 * 10 ^ (last - (Decimal.dropZeros g place).2) := rfl
  have hsplit : last - (Decimal.dropZeros g place).2 =
      place - (Decimal.dropZeros g place).2 + (last - place) := by omega
  rw [hfraction, hsplit, Nat.pow_add, ← Nat.mul_assoc, hvalue]

/-- **Groups after the point add up to what they come to**, if that can be held: the sum is at most
`c` units of a place `s` that falls into the last group. -/
theorem addFractions?_exact {total : Decimal} {groups : List ℕ} {index last s c : ℕ}
    (hsigned : total.negative = false) (hscale : total.scale ≤ s) (hs : s ≤ 4 * last)
    (hlast : 4 * last < s + 4) (hmax : 4 * last ≤ Decimal.maxScale) (hc : c < Decimal.bound)
    (hlength : index + groups.length ≤ last + 1)
    (hdvd : 10 ^ (4 * last - s) ∣ fractionAmount last index groups)
    (hle : total.amount (4 * last) + fractionAmount last index groups ≤ c * 10 ^ (4 * last - s)) :
    ∃ t, addFractions? total (4 * index) groups = some t ∧ t.negative = false ∧ t.scale ≤ s ∧
      t.amount (4 * last) = total.amount (4 * last) + fractionAmount last index groups := by
  induction groups generalizing total index with
  | nil => exact ⟨total, rfl, hsigned, hscale, rfl⟩
  | cons g groups ih =>
    rw [List.length_cons] at hlength
    have hindex : 4 * index ≤ 4 * last := by omega
    have hg := amount_fraction g hindex
    have hpow : last - index + index = last := by omega
    rw [fractionAmount] at hdvd hle ⊢
    have hexp : 4 * (last - index) = 4 * last - 4 * index := by omega
    rw [hexp, ← hg] at hdvd hle ⊢
    -- a group before the last one counts whole units of the place `s`
    obtain ⟨hplaces, hrest⟩ : (fraction g (4 * index)).scale ≤ s ∧
        10 ^ (4 * last - s) ∣ fractionAmount last (index + 1) groups := by
      rcases Nat.lt_or_ge index last with hlt | hge
      · have hwhole : 10 ^ (4 * last - s) ∣ (fraction g (4 * index)).amount (4 * last) := by
          rw [hg]
          exact Dvd.dvd.mul_left (pow_dvd_pow 10 (by omega)) g
        have hplace : (fraction g (4 * index)).scale ≤ 4 * index :=
          (Decimal.dropZeros_spec g (4 * index)).1
        exact ⟨hplace.trans (by omega), (Nat.dvd_add_right hwhole).1 hdvd⟩
      · obtain rfl : index = last := by omega
        obtain rfl : groups = [] := List.eq_nil_of_length_eq_zero (by omega)
        rw [hg, fractionAmount, Nat.sub_self, Nat.pow_zero, Nat.mul_one, Nat.add_zero] at hdvd
        exact ⟨Decimal.dropZeros_le hdvd, Nat.dvd_zero _⟩
    obtain ⟨t, ht, htsigned, htscale, htamount⟩ := Decimal.exists_addMagnitudes? hscale hplaces hs hc
      (Nat.le_trans (by omega) hle)
    obtain ⟨u, hu, husigned, huscale, huamount⟩ := ih htsigned htscale (by omega) hrest
      (by rw [htamount]; omega)
    refine ⟨u, ?_, husigned, huscale, by rw [huamount, htamount]; omega⟩
    rw [addFractions?, if_pos (hindex.trans hmax)]
    simp only [bind, Option.bind, ht]
    exact hu

/-! ## Whole numbers -/

theorem le_foldl (groups : List ℕ) (n : ℕ) :
    n ≤ groups.foldl (fun n g => 10000 * n + g) n := by
  rw [foldl_eq]
  exact Nat.le_add_right_of_le (Nat.le_mul_of_pos_right _ (Nat.pow_pos (by decide)))

/-- What groups spell is read if it can be held. -/
theorem whole?_eq {groups : List ℕ} (h : spell groups < Decimal.bound) :
    whole? groups = some (spell groups) := by
  have hfrom : ∀ n, groups.foldl (fun n g => 10000 * n + g) n < Decimal.bound →
      groups.foldlM (fun n g =>
        let next := 10000 * n + g
        if next < Decimal.bound then some next else none) n =
      some (groups.foldl (fun n g => 10000 * n + g) n) := by
    clear h
    induction groups with
    | nil => exact fun _ _ => rfl
    | cons g groups ih =>
      intro n hn
      rw [List.foldl_cons] at hn ⊢
      have hnext := Nat.lt_of_le_of_lt (le_foldl groups (10000 * n + g)) hn
      rw [List.foldlM_cons]
      dsimp only
      rw [if_pos hnext]
      exact ih _ hn
  exact hfrom 0 h

/-! ## Decimals -/

theorem take_append_drop_zeros (l : List ℕ) :
    ∃ zeros, (∀ g ∈ zeros, g = 0) ∧ l = (l.reverse.dropWhile (· = 0)).reverse ++ zeros := by
  refine ⟨(l.reverse.takeWhile (· = 0)).reverse, fun g hg => ?_, ?_⟩
  · have hall := List.all_takeWhile (p := fun g => decide (g = 0)) (l := l.reverse)
    exact of_decide_eq_true (List.all_eq_true.1 hall g (List.mem_reverse.1 hg))
  · rw [← List.reverse_append, List.takeWhile_append_dropWhile, List.reverse_reverse]

/-- The groups that are kept of the groups of a decimal: all but some zeros at the end, which come
after the first `count` groups. -/
structure Kept (groups kept : List ℕ) (count : ℕ) : Prop where
  front : kept.take count = groups.take count
  count_le : count ≤ kept.length
  back : ∃ zeros, (∀ g ∈ zeros, g = 0) ∧ groups = kept ++ zeros

theorem Kept.length_le {groups kept : List ℕ} {count : ℕ} (h : Kept groups kept count) :
    kept.length ≤ groups.length := by
  obtain ⟨zeros, -, hgroups⟩ := h.back
  rw [hgroups, List.length_append]
  exact Nat.le_add_right _ _

theorem kept_dropZeroGroups {groups : List ℕ} {count : ℕ} (h : count ≤ groups.length) :
    Kept groups (dropZeroGroups count groups) count := by
  obtain ⟨zeros, hzeros, hback⟩ := take_append_drop_zeros (groups.drop count)
  have hlength : (groups.take count).length = count := by rw [List.length_take]; omega
  refine ⟨?_, ?_, zeros, hzeros, ?_⟩
  · rw [dropZeroGroups, List.take_append_of_le_length (by rw [hlength]), List.take_take,
      Nat.min_self]
  · rw [dropZeroGroups, List.length_append, hlength]
    exact Nat.le_add_right _ _
  · rw [dropZeroGroups, List.append_assoc, ← hback, List.take_append_drop]

/-- The number of groups after the point that the places of a decimal fall into. -/
def fractionGroups (d : Decimal) : ℕ := (d.scale + 3) / 4

/-- The groups of four digits of a decimal. -/
def allGroups (d : Decimal) : List ℕ :=
  groupsOf (d.coefficient * 10 ^ (4 * fractionGroups d - d.scale))

/-- The number of groups before the point. -/
def wholeGroups (d : Decimal) : ℕ := (allGroups d).length - fractionGroups d

/-- The groups of a decimal that are written. -/
def keptGroups (d : Decimal) : List ℕ :=
  if 0 ≤ ((allGroups d).length : ℤ) - fractionGroups d - 1 then
    dropZeroGroups (((allGroups d).length : ℤ) - fractionGroups d - 1 + 1).toNat (allGroups d)
  else allGroups d

theorem ofDecimal_eq {d : Decimal} (h : d.coefficient ≠ 0) : ofDecimal d =
    { weight := ((allGroups d).length : ℤ) - fractionGroups d - 1
      sign := if d.negative then negativeSign else positiveSign
      places := d.scale
      groups := keptGroups d } :=
  if_neg h

variable (d : Decimal)

theorem toNat_weight :
    (((allGroups d).length : ℤ) - fractionGroups d - 1 + 1).toNat = wholeGroups d := by
  unfold wholeGroups
  omega

theorem kept_keptGroups : Kept (allGroups d) (keptGroups d) (wholeGroups d) := by
  unfold keptGroups
  split_ifs
  · rw [toNat_weight]
    exact kept_dropZeroGroups (Nat.sub_le _ _)
  · exact ⟨rfl, Nat.sub_le _ _, [], fun _ h => (nomatch h), (List.append_nil _).symm⟩

/-- The groups after the point come to what all of them spell, though some are not written. -/
theorem fractionAmount_keptGroups :
    fractionAmount (fractionGroups d) (fractionGroups d - (allGroups d).length + 1)
      ((keptGroups d).drop (wholeGroups d)) = spell ((allGroups d).drop (wholeGroups d)) := by
  have hkept := kept_keptGroups d
  obtain ⟨zeros, hzeros, hgroups⟩ := hkept.back
  have hdrop : (allGroups d).drop (wholeGroups d) =
      (keptGroups d).drop (wholeGroups d) ++ zeros := by
    rw [← List.drop_append_of_le_length hkept.count_le, ← hgroups]
  rw [← fractionAmount_append_zeros _ _ _ hzeros, ← hdrop]
  refine fractionAmount_eq_spell ?_
  rw [List.length_drop, wholeGroups]
  omega

/-- What the groups of a decimal come to before and after the point. -/
theorem spell_parts :
    spell ((keptGroups d).take (wholeGroups d)) * 10 ^ (4 * fractionGroups d) +
      fractionAmount (fractionGroups d) (fractionGroups d - (allGroups d).length + 1)
        ((keptGroups d).drop (wholeGroups d)) =
      d.coefficient * 10 ^ (4 * fractionGroups d - d.scale) := by
  have hspell : spell (allGroups d) = d.coefficient * 10 ^ (4 * fractionGroups d - d.scale) :=
    spell_groupsOf _
  rw [(kept_keptGroups d).front, fractionAmount_keptGroups, ← hspell]
  rcases Nat.lt_or_ge (allGroups d).length (fractionGroups d) with hshort | hlong
  · have hnone : wholeGroups d = 0 := Nat.sub_eq_zero_of_le (Nat.le_of_lt hshort)
    rw [hnone, List.take_zero, List.drop_zero]
    exact (congrArg (· + spell (allGroups d)) (Nat.zero_mul _)).trans (Nat.zero_add _)
  · have hlength : ((allGroups d).drop (wholeGroups d)).length = fractionGroups d := by
      rw [List.length_drop, wholeGroups]
      omega
    have h := spell_append ((allGroups d).take (wholeGroups d)) ((allGroups d).drop (wholeGroups d))
    rw [List.take_append_drop, hlength, ← ten_pow_four_mul] at h
    exact h.symm

variable {d : Decimal}

/-- The whole number before the point can be held, since the decimal can. -/
theorem spell_whole_lt (hfits : d.Fits) :
    spell ((keptGroups d).take (wholeGroups d)) < Decimal.bound := by
  have hle : 10 ^ (4 * fractionGroups d - d.scale) ≤ 10 ^ (4 * fractionGroups d) :=
    Nat.pow_le_pow_right (by decide) (Nat.sub_le _ _)
  have hmul : spell ((keptGroups d).take (wholeGroups d)) *
      10 ^ (4 * fractionGroups d - d.scale) ≤
        d.coefficient * 10 ^ (4 * fractionGroups d - d.scale) :=
    (Nat.mul_le_mul_left _ hle).trans (spell_parts d ▸ Nat.le_add_right _ _)
  exact Nat.lt_of_le_of_lt (Nat.le_of_mul_le_mul_right hmul (Nat.pow_pos (by decide)))
    hfits.coefficient_lt

/-- The groups after the point are added up to the decimal without its sign. -/
theorem exists_addFractions? (hfits : d.Fits) : ∃ t,
    addFractions? ⟨false, spell ((keptGroups d).take (wholeGroups d)), 0⟩
      (4 * (fractionGroups d - (allGroups d).length + 1)) ((keptGroups d).drop (wholeGroups d)) =
        some t ∧
    t.scale ≤ d.scale ∧ t.amount d.scale = d.coefficient := by
  have hparts := spell_parts d
  have hlength : fractionGroups d - (allGroups d).length + 1 +
      ((keptGroups d).drop (wholeGroups d)).length ≤ fractionGroups d + 1 := by
    have hkept := (kept_keptGroups d).length_le
    rw [List.length_drop, wholeGroups]
    omega
  have hlast : fractionGroups d = (d.scale + 3) / 4 := rfl
  generalize fractionGroups d - (allGroups d).length + 1 = index at *
  generalize (keptGroups d).drop (wholeGroups d) = groups at *
  generalize spell ((keptGroups d).take (wholeGroups d)) = whole at *
  generalize fractionGroups d = last at *
  have hscale : d.scale ≤ 4 * last := by omega
  have hmax : 4 * last ≤ Decimal.maxScale := by
    have hplaces := hfits.scale_le
    have hmaximum : Decimal.maxScale = 28 := rfl
    omega
  have hwhole : (⟨false, whole, 0⟩ : Decimal).amount (4 * last) = whole * 10 ^ (4 * last) := rfl
  -- groups after the point count whole units of the last place
  have hdvd : 10 ^ (4 * last - d.scale) ∣ fractionAmount last index groups := by
    have hsum := Dvd.intro_left d.coefficient hparts.symm
    exact (Nat.dvd_add_right (Dvd.dvd.mul_left (pow_dvd_pow 10 (Nat.sub_le _ _)) _)).1 hsum
  obtain ⟨t, ht, -, hplaces, htotal⟩ := addFractions?_exact rfl (Nat.zero_le _) hscale (by omega)
    hmax hfits.coefficient_lt hlength hdvd (by rw [hwhole, hparts])
  refine ⟨t, ht, hplaces, ?_⟩
  rw [hwhole, hparts, Decimal.amount_of_le hplaces hscale] at htotal
  exact Nat.eq_of_mul_eq_mul_right (Nat.pow_pos (by decide)) htotal

/-- What is read of parts that spell a number which can be held, with groups up to the point. -/
theorem toDecimal?_eq {n : Numeric} {t : Decimal}
    (hsign : n.sign = positiveSign ∨ n.sign = negativeSign)
    (hcount : (n.weight + 1).toNat ≤ n.groups.length)
    (hwhole : spell (n.groups.take (n.weight + 1).toNat) < Decimal.bound)
    (hfractions : addFractions? ⟨false, spell (n.groups.take (n.weight + 1).toNat), 0⟩
      (4 * ((-n.weight - 1).toNat + 1)) (n.groups.drop (n.weight + 1).toNat) = some t) :
    n.toDecimal? = some ({ t with negative := n.sign = negativeSign }.rescale n.places) := by
  have hunit : ∀ whole, whole * Nat.pow 10 (4 * 0) = whole := Nat.mul_one
  unfold toDecimal?
  dsimp only
  rw [if_neg (fun h => hsign.elim h.1 h.2), whole?_eq hwhole, Nat.sub_eq_zero_of_le hcount]
  simp only [bind, Option.bind, pure, hunit]
  rw [if_neg (Nat.not_lt_zero _), if_neg (Nat.not_le_of_lt hwhole), hfractions]

/-- **A decimal that is not zero is read back from its parts.** -/
theorem toDecimal?_ofDecimal (h : d.coefficient ≠ 0) (hfits : d.Fits) :
    (ofDecimal d).toDecimal? = some d := by
  obtain ⟨t, ht, hplaces, hexact⟩ := exists_addFractions? hfits
  have hwhole := spell_whole_lt hfits
  have hcount := (kept_keptGroups d).count_le
  have hskipped : (-(((allGroups d).length : ℤ) - fractionGroups d - 1) - 1).toNat =
      fractionGroups d - (allGroups d).length := by omega
  rw [← toNat_weight] at hwhole hcount ht
  rw [← hskipped] at ht
  have hsign : (if d.negative then negativeSign else positiveSign) = positiveSign ∨
      (if d.negative then negativeSign else positiveSign) = negativeSign := by
    cases d.negative <;> decide
  have hsigned : decide ((if d.negative then negativeSign else positiveSign) = negativeSign) =
      d.negative := by
    cases d.negative <;> rfl
  have hrescale := Decimal.rescale_of_le (d := { t with negative := d.negative }) hplaces
    hfits.scale_le (hexact.symm ▸ hfits.coefficient_lt)
  rw [ofDecimal_eq h, toDecimal?_eq hsign hcount hwhole ht]
  dsimp only
  rw [hsigned, hrescale]
  exact congrArg (fun c => some (⟨d.negative, c, d.scale⟩ : Decimal)) hexact

/-- What a zero is read back as. -/
theorem toDecimal?_ofDecimal_zero (h : d.coefficient = 0) :
    (ofDecimal d).toDecimal? = some ⟨false, 0, 0⟩ := by
  rw [ofDecimal, if_pos h]
  rfl

/-! ## Bounds -/

theorem length_allGroups_le (hfits : d.Fits) : (allGroups d).length ≤ 106 := by
  have hpow : 10 ^ (4 * fractionGroups d - d.scale) ≤ 10 ^ 3 :=
    Nat.pow_le_pow_right (by decide) (by unfold fractionGroups; omega)
  have hlt : d.coefficient * 10 ^ (4 * fractionGroups d - d.scale) < 2 ^ 106 :=
    Nat.lt_of_le_of_lt (Nat.mul_le_mul (Nat.le_of_lt hfits.coefficient_lt) hpow) (by decide)
  refine (length_groupsOf_le _).trans ?_
  rcases Nat.eq_zero_or_pos (d.coefficient * 10 ^ (4 * fractionGroups d - d.scale)) with hzero | hpos
  · rw [hzero, Nat.log2_zero]
    decide
  · exact Nat.succ_le_of_lt ((Nat.log2_lt (Nat.ne_of_gt hpos)).2 hlt)

theorem lt_of_mem_keptGroups {g : ℕ} (h : g ∈ keptGroups d) : g < 10000 := by
  obtain ⟨zeros, -, hgroups⟩ := (kept_keptGroups d).back
  exact lt_of_mem_groupsOf (hgroups ▸ List.mem_append_left zeros h : g ∈ allGroups d)

/-- The parts of a decimal fit the bytes they are written with, and there are few groups. -/
theorem sized_ofDecimal (hfits : d.Fits) :
    (ofDecimal d).Sized ∧ (ofDecimal d).groups.length ≤ 106 := by
  have hscale := hfits.scale_le
  have hmaximum : Decimal.maxScale = 28 := rfl
  by_cases hzero : d.coefficient = 0
  · rw [ofDecimal, if_pos hzero]
    exact ⟨⟨by decide, by decide, by decide, by decide, by decide, fun _ h => nomatch h⟩, by decide⟩
  · have hlength := length_allGroups_le hfits
    have hkept := (kept_keptGroups d).length_le
    have hfraction : fractionGroups d ≤ 7 := by
      unfold fractionGroups
      omega
    rw [ofDecimal_eq hzero]
    refine ⟨⟨?_, ?_, ?_, ?_, ?_, fun g hg => ?_⟩, hkept.trans hlength⟩
    · exact Nat.lt_of_le_of_lt (hkept.trans hlength) (by decide)
    · dsimp only
      omega
    · dsimp only
      omega
    · dsimp only
      cases d.negative <;> decide
    · dsimp only
      omega
    · exact Nat.lt_trans (lt_of_mem_keptGroups hg) (by decide)

theorem length_toBytes (n : Numeric) : n.toBytes.length = 8 + 2 * n.groups.length := by
  have hgroups : (n.groups.flatMap (Bytes.ofNat 2)).length = 2 * n.groups.length := by
    induction n.groups with
    | nil => rfl
    | cons g groups ih =>
      rw [List.flatMap_cons, List.length_append, ih, Bytes.length_ofNat, List.length_cons]
      omega
  simp only [toBytes, List.length_append, Bytes.length_ofNat, Bytes.length_ofInt, hgroups]

/-! ## What is read can be held -/

theorem addFractions?_lt {total t : Decimal} {place : ℕ} {groups : List ℕ}
    (htotal : total.coefficient < Decimal.bound) (h : addFractions? total place groups = some t) :
    t.coefficient < Decimal.bound := by
  induction groups generalizing total place with
  | nil =>
    cases h
    exact htotal
  | cons g groups ih =>
    rw [addFractions?] at h
    split_ifs at h
    · obtain ⟨next, hnext, h⟩ := Option.bind_eq_some_iff.1 h
      exact ih (Decimal.fit?_lt hnext) h
    · obtain ⟨next, hnext, h⟩ := Option.bind_eq_some_iff.1 h
      exact ih (Decimal.fit?_lt hnext) h
    · exact ih htotal h

/-- **Whatever is read can be held.** -/
theorem fits_of_toDecimal? {n : Numeric} (h : n.toDecimal? = some d) : d.Fits := by
  unfold toDecimal? at h
  split_ifs at h
  obtain ⟨front, -, h⟩ := Option.bind_eq_some_iff.1 h
  dsimp only at h
  split_ifs at h with hmissing hwhole
  obtain ⟨t, ht, h⟩ := Option.bind_eq_some_iff.1 h
  cases h
  have hheld := addFractions?_lt (Nat.lt_of_not_le hwhole) ht
  exact Decimal.fits_rescale (d := { t with negative := n.sign = negativeSign }) hheld _

end QueryClient.Wire.Numeric
