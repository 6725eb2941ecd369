/-
  String literals of JSON.

  A text in quotes is read as that text, whatever characters it has: those that cannot stand in a
  literal are escaped, and every escape is undone.  What is read costs more characters than it has,
  as the quotes are not part of it.

  * `parse?_toText_str`: the text of a string is read as the string;
  * `length_of_parse?`: a string that is read is shorter than its text.
-/
import QueryClient.Json.Parser
import QueryClient.Json.Printer
import QueryClient.Proofs.Wire.Identifiers

namespace QueryClient.Json

open QueryClient.Text

variable {fuel : ℕ} {acc cs rest : List Char} {c : Char} {s : String}

/-! ## Escapes -/

theorem fourHex?_hexNat {n : ℕ} (h : n < 65536) (rest : List Char) :
    fourHex? (hexNat 4 n ++ rest) = some (n, rest) := by
  have hsum : 4096 * (n / 16 / 16 / 16 % 16) + 256 * (n / 16 / 16 % 16) + 16 * (n / 16 % 16) +
      n % 16 = n := by omega
  have hdigit : ∀ k, hexValue? (hexDigit (k % 16)) = some (k % 16) := fun k =>
    hexValue?_hexDigit (Nat.mod_lt k (by decide))
  simp only [hexNat, List.nil_append, List.cons_append, fourHex?, hdigit, Option.bind_eq_bind,
    Option.bind_some, hsum]

/-- A control character that is spelled by its number. -/
theorem unicodeEscape?_hexNat (h : c.toNat < 0x20) (rest : List Char) :
    unicodeEscape? (hexNat 4 c.toNat ++ rest) = some (c, rest) := by
  have hhigh : ¬ (0xD800 ≤ c.toNat ∧ c.toNat < 0xDC00) := by omega
  have hlow : ¬ (0xDC00 ≤ c.toNat ∧ c.toNat < 0xE000) := by omega
  rw [unicodeEscape?, fourHex?_hexNat (by omega)]
  simp only [Option.bind_eq_bind, Option.bind_some, if_neg hhigh, if_neg hlow, Char.ofNat_toNat]

/-- A character is read back as it was written, in one step. -/
theorem stringBody_escapeChar (fuel : ℕ) (acc : List Char) (c : Char) (rest : List Char) :
    stringBody (fuel + 1) acc (escapeChar c ++ rest) = stringBody fuel (c :: acc) rest := by
  unfold escapeChar
  split
  iterate 7 rfl
  · next hquote hbackslash _ _ _ _ _ =>
    split_ifs with hcontrol
    · have hescape : escape? ('u' :: (hexNat 4 c.toNat ++ rest)) = some (c, rest) :=
        unicodeEscape?_hexNat hcontrol rest
      rw [List.cons_append, List.cons_append, stringBody]
      simp only [hescape, Option.bind_some]
    · rw [List.singleton_append, stringBody]
      · exact if_neg hcontrol
      · exact hquote
      · exact hbackslash

theorem stringBody_flatMap {cs : List Char} (h : cs.length < fuel) (acc rest : List Char) :
    stringBody fuel acc (cs.flatMap escapeChar ++ '"' :: rest) =
      some (String.ofList (acc.reverse ++ cs), rest) := by
  induction cs generalizing fuel acc with
  | nil =>
    obtain ⟨fuel, rfl⟩ := Nat.exists_eq_add_of_lt h
    simp [stringBody]
  | cons c cs ih =>
    obtain ⟨fuel, rfl⟩ : ∃ k, fuel = k + 1 := ⟨fuel - 1, by omega⟩
    have hcs : cs.length < fuel := Nat.lt_of_succ_lt_succ h
    rw [List.flatMap_cons, List.append_assoc, stringBody_escapeChar, ih hcs]
    simp

/-! ## Strings -/

theorem length_le_flatMap_escapeChar (cs : List Char) :
    cs.length ≤ (cs.flatMap escapeChar).length := by
  have hpos : ∀ c, 0 < (escapeChar c).length := by
    intro c
    unfold escapeChar
    split <;> try exact Nat.succ_pos _
    split_ifs <;> exact Nat.succ_pos _
  induction cs with
  | nil => exact Nat.le_refl _
  | cons c cs ih =>
    rw [List.flatMap_cons, List.length_append, List.length_cons, Nat.add_comm]
    exact Nat.add_le_add (hpos c) ih

/-- **The text of a string is read as the string**, whatever it has in it. -/
theorem parse?_toText_str (s : String) : parse? (toText (.str s)) = some (.str s) := by
  have hlength := length_le_flatMap_escapeChar s.toList
  have hbody : ∀ n, (quote s).length ≤ n → value? (2 * n + 2) 127 (quote s) =
      some (.str s, []) := by
    intro n hn
    have hfuel : s.toList.length < 2 * n + 1 := by
      simp only [quote, List.length_cons, List.length_append] at hn
      omega
    have hread : stringBody (2 * n + 1) [] (s.toList.flatMap escapeChar ++ ['"']) =
        some (s, []) := by
      rw [stringBody_flatMap hfuel, List.reverse_nil, List.nil_append, String.ofList_toList]
    have hspaces : skipSpaces (quote s) = quote s := rfl
    rw [value?, hspaces]
    simp only [quote, hread, Option.map_some]
  rw [parse?, toText, print]
  simp only [String.toList_ofList, hbody _ (Nat.le_refl _)]
  rfl

/-! ## Lengths -/

theorem length_of_fourHex? {n : ℕ} (h : fourHex? cs = some (n, rest)) :
    rest.length < cs.length := by
  unfold fourHex? at h
  split at h
  · simp only [Option.bind_eq_bind, Option.bind_eq_some_iff] at h
    obtain ⟨_, -, _, -, _, -, _, -, h⟩ := h
    cases h
    simp only [List.length_cons]
    omega
  · cases h

theorem length_of_unicodeEscape? (h : unicodeEscape? cs = some (c, rest)) :
    rest.length < cs.length := by
  simp only [unicodeEscape?, Option.bind_eq_bind, Option.bind_eq_some_iff] at h
  obtain ⟨⟨high, rest₁⟩, hhigh, h⟩ := h
  have hle := length_of_fourHex? hhigh
  dsimp only at h
  split_ifs at h
  · split at h
    · obtain ⟨⟨low, rest₂⟩, hlow, h⟩ := Option.bind_eq_some_iff.1 h
      have hle' := length_of_fourHex? hlow
      dsimp only at h
      split_ifs at h
      obtain ⟨-, rfl⟩ := Prod.mk.inj (Option.some.inj h)
      simp only [List.length_cons] at hle
      omega
    · cases h
  · obtain ⟨-, rfl⟩ := Prod.mk.inj (Option.some.inj h)
    exact hle

/-- An escape takes something off the text. -/
theorem length_of_escape? (h : escape? cs = some (c, rest)) : rest.length < cs.length := by
  unfold escape? at h
  split at h
  iterate 8
    cases h
    exact Nat.lt_succ_self _
  · exact Nat.lt_succ_of_lt (length_of_unicodeEscape? h)
  · cases h

/-- A literal has a character for each of the string, and its closing quote. -/
theorem length_of_stringBody (h : stringBody fuel acc cs = some (s, rest)) :
    s.length + 1 + rest.length ≤ acc.length + cs.length := by
  induction fuel generalizing acc cs with
  | zero => cases h
  | succ fuel ih =>
    rw [stringBody.eq_def] at h
    dsimp only at h
    split at h
    · cases h
      simp only [String.length_ofList, List.length_reverse, List.length_cons]
      omega
    · obtain ⟨⟨c, cs'⟩, hescape, h⟩ := Option.bind_eq_some_iff.1 h
      have hle := length_of_escape? hescape
      have hrest := ih h
      simp only [List.length_cons] at hrest ⊢
      omega
    · split_ifs at h
      have hrest := ih h
      simp only [List.length_cons] at hrest ⊢
      omega
    · cases h

theorem numberTail?_ne_str {negative : Bool} {n : Scaled} :
    numberTail? negative n cs ≠ some (.str s, rest) := by
  unfold numberTail?
  split
  iterate 2
    simp only [Option.bind_eq_bind, ne_eq, Option.bind_eq_some_iff]
    rintro ⟨_, -, _, -, h⟩
    cases h
  · intro h
    obtain ⟨x, -, h⟩ := Option.map_eq_some_iff.1 h
    cases h

theorem wholeNumber?_ne_str {negative : Bool} {ds : List Char} :
    wholeNumber? negative ds ≠ some (.str s) := by
  unfold wholeNumber?
  dsimp only
  split_ifs
  iterate 3 exact fun h => nomatch h
  · intro h
    obtain ⟨x, -, h⟩ := Option.map_eq_some_iff.1 h
    cases h

/-- A number is no string. -/
theorem number?_ne_str {negative : Bool} : number? negative cs ≠ some (.str s, rest) := by
  intro h
  simp only [number?, Option.bind_eq_bind, Option.bind_eq_some_iff] at h
  obtain ⟨⟨ds, rest₁⟩, -, h⟩ := h
  dsimp only at h
  split at h
  · split_ifs at h
    exact numberTail?_ne_str h
  iterate 2 exact numberTail?_ne_str h
  · obtain ⟨j, hj, h⟩ := Option.map_eq_some_iff.1 h
    cases h
    exact wholeNumber?_ne_str hj

theorem eq_of_word? {w : String} {j j' : Json} (h : word? w j cs = some (j', rest)) : j' = j := by
  unfold word? at h
  dsimp only at h
  split_ifs at h
  cases h
  rfl

/-- The only value that is a string begins with a quote. -/
theorem length_of_value? {depth : ℕ} (h : value? fuel depth cs = some (.str s, rest)) :
    s.length + 2 ≤ cs.length := by
  have hspaces : (skipSpaces cs).length ≤ cs.length := (List.dropWhile_sublist _).length_le
  cases fuel with
  | zero => cases h
  | succ fuel =>
    rw [value?] at h
    split at h
    iterate 3 cases eq_of_word? h
    · next body hquote =>
      obtain ⟨⟨t, rest'⟩, hbody, h⟩ := Option.map_eq_some_iff.1 h
      cases h
      have hle := length_of_stringBody hbody
      rw [hquote] at hspaces
      simp only [List.length_nil, List.length_cons] at hle hspaces
      omega
    · exact absurd h number?_ne_str
    iterate 2
      split at h
      · cases h
      · split at h
        · cases h
        · obtain ⟨_, -, h⟩ := Option.map_eq_some_iff.1 h
          cases h
    · exact absurd h number?_ne_str

/-- **A string that is read is shorter than its text.** -/
theorem length_of_parse? {text : String} (h : parse? text = some (.str s)) :
    s.length + 2 ≤ text.length := by
  simp only [parse?] at h
  split at h
  · next j rest hvalue =>
    split_ifs at h
    cases h
    rw [← String.length_toList]
    exact length_of_value? hvalue
  · cases h

end QueryClient.Json
