/-
  The text of a value is read as the value.

  A value is read up to where its text ends, if no other character can go on with a number there.
  What is read has the same whole numbers as long as these fit 64 bits, and the same fields as long
  as their keys stand in order.

  * `Plain`: no floating point numbers, whole numbers of 64 bits, objects with their keys in order,
    and a bound for the nesting;
  * `Plain.readsBack`: such a value is read at the front of a text that starts with its text;
  * `Plain.parse?_toText`: its text is read as the value.
-/
import QueryClient.Proofs.Json.Literal
import QueryClient.Proofs.Json.Ordered
import QueryClient.Proofs.Number.Digits

namespace QueryClient.Json

open QueryClient.Number QueryClient.Text

/-- Values that their texts stand for, at most as deep as a bound. -/
inductive Plain : ℕ → Json → Prop
  | null {depth : ℕ} : Plain depth .null
  | bool {depth : ℕ} (b : Bool) : Plain depth (.bool b)
  | int {depth : ℕ} {i : ℤ} (hlow : -2 ^ 63 ≤ i) (hhigh : i < 2 ^ 64) : Plain depth (.int i)
  | str {depth : ℕ} (s : String) : Plain depth (.str s)
  | arr {depth : ℕ} {items : List Json} (h : ∀ item ∈ items, Plain depth item) :
      Plain (depth + 1) (.arr items)
  | obj {depth : ℕ} {fields : Fields} (hkeys : fields.Ordered)
      (h : ∀ field ∈ fields, Plain depth field.2) : Plain (depth + 1) (.obj fields)

variable {depth fuel n : ℕ} {i : ℤ} {j : Json} {cs rest : List Char}

theorem Plain.nat (h : n < 2 ^ 64) : Plain depth (.int n) := .int (by omega) (by omega)

/-- An object built from plain values is plain, in whatever order they come. -/
theorem Plain.object {pairs : List (String × Json)} (h : ∀ pair ∈ pairs, Plain depth pair.2) :
    Plain (depth + 1) (Json.object pairs) :=
  .obj (Fields.ordered_ofList pairs) fun _ hfield => h _ (Fields.mem_of_mem_ofList hfield)

/-! ## Numbers -/

/-- What does not go on with a number. -/
def Stops (rest : List Char) : Prop :=
  ∀ c ∈ rest.head?, ¬ c.isDigit ∧ c ≠ '.' ∧ c ≠ 'e' ∧ c ≠ 'E'

/-- No zero stands in front of another digit. -/
theorem toDigits_eq_zero_cons {ds : List Char} (h : Nat.toDigits 10 n = '0' :: ds) : ds = [] := by
  induction n using Nat.strong_induction_on generalizing ds with
  | _ n ih =>
    rcases Nat.lt_or_ge n 10 with hn | hn
    · rw [Nat.toDigits_of_lt_base hn] at h
      exact (List.cons.inj h).2.symm
    · rw [Nat.toDigits_of_base_le (by decide) hn] at h
      obtain ⟨c, front, hfront⟩ := List.exists_cons_of_ne_nil (Nat.toDigits_ne_nil (b := 10)
        (n := n / 10))
      rw [hfront] at h
      obtain ⟨rfl, -⟩ := List.cons.inj h
      have hnil := ih (n / 10) (by omega) hfront
      have hzero := natOfDigits_toDigits (n / 10)
      rw [hfront, hnil] at hzero
      have : n / 10 = 0 := hzero.symm
      omega

theorem number?_toDigits (negative : Bool) (hrest : Stops rest) :
    number? negative (Nat.toDigits 10 n ++ rest) =
      (wholeNumber? negative (Nat.toDigits 10 n)).map fun j => (j, rest) := by
  have hspan : spanDigits (Nat.toDigits 10 n ++ rest) = (Nat.toDigits 10 n, rest) :=
    spanDigits_append (fun c => isDigit_toDigits) fun c hc => (hrest c hc).1
  have hwhole : wholeDigits? (Nat.toDigits 10 n ++ rest) = some (Nat.toDigits 10 n, rest) := by
    rw [wholeDigits?, hspan]
    split
    · next h => exact absurd (Prod.mk.inj h).1 Nat.toDigits_ne_nil
    · next h => cases toDigits_eq_zero_cons (Prod.mk.inj h).1
    · next h =>
      cases h
      rfl
  rw [number?, hwhole, Option.bind_eq_bind, Option.bind_some]
  dsimp only
  split
  · exact absurd rfl (hrest _ rfl).2.1
  · exact absurd rfl (hrest _ rfl).2.2.1
  · exact absurd rfl (hrest _ rfl).2.2.2
  · rfl

theorem wholeNumber?_natAbs (hlow : -2 ^ 63 ≤ i) (hhigh : i < 2 ^ 64) :
    wholeNumber? (i < 0) (Nat.toDigits 10 i.natAbs) = some (.int i) := by
  have hunsigned : i.natAbs ≤ unsignedMax 64 := by
    have : unsignedMax 64 = 2 ^ 64 - 1 := by decide
    omega
  rw [wholeNumber?, natOfDigits_toDigits, if_pos hunsigned]
  by_cases hneg : i < 0
  · have hbits : 0 < i.natAbs ∧ i.natAbs ≤ unsignedMax 63 + 1 := by
      have : unsignedMax 63 = 2 ^ 63 - 1 := by decide
      omega
    have hint : -(i.natAbs : ℤ) = i := by omega
    rw [decide_eq_true hneg, if_neg (by decide), if_pos hbits, hint]
  · have hint : (i.natAbs : ℤ) = i := by omega
    rw [decide_eq_false hneg, if_pos (by decide), hint]

/-! ## Values -/

/-- A text that starts with the text of the value is read as the value and what comes after. -/
def ReadsBack (depth : ℕ) (j : Json) : Prop :=
  ∀ fuel rest, 2 * (print j).length + 1 ≤ fuel → Stops rest →
    value? fuel depth (print j ++ rest) = some (j, rest)

theorem readsBack_of_succ (h : ∀ fuel rest, 2 * (print j).length ≤ fuel → Stops rest →
    value? (fuel + 1) depth (print j ++ rest) = some (j, rest)) : ReadsBack depth j := by
  intro fuel rest hfuel hrest
  obtain ⟨fuel, rfl⟩ : ∃ k, fuel = k + 1 := ⟨fuel - 1, by omega⟩
  exact h fuel rest (Nat.le_of_succ_le_succ hfuel) hrest

theorem isSpace_of_isDigit {c : Char} (h : c.isDigit) : isSpace c = false := by
  refine Bool.eq_false_iff.2 fun hspace => ?_
  simp only [isSpace, Bool.or_eq_true, decide_eq_true_eq] at hspace
  rcases hspace with ((rfl | rfl) | rfl) | rfl <;> exact absurd h (by decide)

theorem exists_toDigits (n : ℕ) : ∃ c cs, Nat.toDigits 10 n = c :: cs ∧ c.isDigit := by
  obtain ⟨c, cs, hdigits⟩ := List.exists_cons_of_ne_nil (Nat.toDigits_ne_nil (b := 10) (n := n))
  exact ⟨c, cs, hdigits, isDigit_toDigits (hdigits ▸ List.mem_cons_self)⟩

/-- The text of a value begins with no blank, and with no bracket that closes. -/
theorem Plain.exists_print (h : Plain depth j) :
    ∃ c cs, print j = c :: cs ∧ isSpace c = false ∧ c ≠ ']' := by
  cases h with
  | null => exact ⟨'n', _, rfl, rfl, by decide⟩
  | bool b => cases b <;> exact ⟨_, _, rfl, rfl, by decide⟩
  | @int _ i =>
    rw [print, intText]
    split_ifs
    · exact ⟨'-', _, rfl, rfl, by decide⟩
    · obtain ⟨c, cs, hdigits, hc⟩ := exists_toDigits i.natAbs
      exact ⟨c, cs, hdigits, isSpace_of_isDigit hc, fun he => absurd (he ▸ hc) (by decide)⟩
  | str s => exact ⟨'"', _, rfl, rfl, by decide⟩
  | arr => exact ⟨'[', _, rfl, rfl, by decide⟩
  | obj => exact ⟨_, _, rfl, rfl, by decide⟩

theorem value?_minus : value? (fuel + 1) depth ('-' :: cs) = number? true cs := rfl

theorem value?_of_isDigit {c : Char} (hc : c.isDigit) :
    value? (fuel + 1) depth (c :: cs) = number? false (c :: cs) := by
  have hspaces : skipSpaces (c :: cs) = c :: cs :=
    List.dropWhile_cons_of_neg (by rw [isSpace_of_isDigit hc]; decide)
  rw [value?, hspaces]
  split
  all_goals try rfl
  all_goals
    next h =>
      cases h
      exact absurd hc (by decide)

theorem readsBack_null : ReadsBack depth .null := readsBack_of_succ fun _ _ _ _ => rfl

theorem readsBack_bool (b : Bool) : ReadsBack depth (.bool b) := by
  cases b <;> exact readsBack_of_succ fun _ _ _ _ => rfl

theorem readsBack_int (hlow : -2 ^ 63 ≤ i) (hhigh : i < 2 ^ 64) : ReadsBack depth (.int i) := by
  refine readsBack_of_succ fun fuel rest _ hrest => ?_
  have hnumber : number? (i < 0) (Nat.toDigits 10 i.natAbs ++ rest) = some (.int i, rest) := by
    rw [number?_toDigits _ hrest, wholeNumber?_natAbs hlow hhigh, Option.map_some]
  rw [print, intText]
  split_ifs with hneg
  · rw [decide_eq_true hneg] at hnumber
    rw [List.cons_append, value?_minus, hnumber]
  · rw [decide_eq_false hneg] at hnumber
    obtain ⟨c, cs, hdigits, hc⟩ := exists_toDigits i.natAbs
    rw [hdigits, List.cons_append] at hnumber ⊢
    rw [value?_of_isDigit hc, hnumber]

theorem stringBody_flatMap_toList {s : String} (h : s.toList.length < fuel) (rest : List Char) :
    stringBody fuel [] (s.toList.flatMap escapeChar ++ '"' :: rest) = some (s, rest) := by
  rw [stringBody_flatMap h, List.reverse_nil, List.nil_append, String.ofList_toList]

theorem length_lt_quote (s : String) : s.toList.length + 1 < (quote s).length := by
  have hlength := length_le_flatMap_escapeChar s.toList
  simp only [quote, List.length_cons, List.length_append]
  omega

theorem quote_append (s : String) (rest : List Char) :
    quote s ++ rest = '"' :: (s.toList.flatMap escapeChar ++ '"' :: rest) := by
  simp [quote]

theorem skipSpaces_quote (s : String) (rest : List Char) :
    skipSpaces (quote s ++ rest) = '"' :: (s.toList.flatMap escapeChar ++ '"' :: rest) := by
  rw [quote_append]
  rfl

theorem readsBack_str (s : String) : ReadsBack depth (.str s) := by
  refine readsBack_of_succ fun fuel rest hfuel _ => ?_
  have hquote := length_lt_quote s
  rw [print] at hfuel ⊢
  have hshort : s.toList.length < fuel := by omega
  rw [value?, skipSpaces_quote]
  simp only [stringBody_flatMap_toList hshort, Option.map_some]

/-! ## Arrays and objects -/

theorem stops_cons {c : Char} (h : ¬ c.isDigit ∧ c ≠ '.' ∧ c ≠ 'e' ∧ c ≠ 'E') :
    Stops (c :: rest) := by
  rintro _ ⟨⟩
  exact h

section
variable {item : Json} {items : List Json} {key : String} {fields : Fields} {mid : List Char}

theorem items?_singleton (h : value? fuel depth cs = some (item, ']' :: rest)) :
    items? (fuel + 1) depth cs = some ([item], rest) := by
  rw [items?, h]
  rfl

theorem items?_cons (h : value? fuel depth cs = some (item, ',' :: mid))
    (hmid : items? fuel depth mid = some (items, rest)) :
    items? (fuel + 1) depth cs = some (item :: items, rest) := by
  rw [items?, h, Option.bind_eq_bind, Option.bind_some]
  exact Option.bind_eq_some_iff.2 ⟨_, hmid, rfl⟩

theorem items?_printItems (hne : items ≠ []) (h : ∀ item ∈ items, ReadsBack depth item)
    (hfuel : 2 * (printItems items).length + 2 ≤ fuel) (rest : List Char) :
    items? fuel depth (printItems items ++ ']' :: rest) = some (items, rest) := by
  induction items generalizing fuel with
  | nil => exact absurd rfl hne
  | cons item items ih =>
    obtain ⟨fuel, rfl⟩ : ∃ k, fuel = k + 1 := ⟨fuel - 1, by omega⟩
    obtain ⟨hitem, hitems⟩ := List.forall_mem_cons.1 h
    cases items with
    | nil =>
      rw [printItems] at hfuel ⊢
      exact items?_singleton (hitem fuel _ (by omega) (stops_cons (by decide)))
    | cons next items =>
      have hprint : printItems (item :: next :: items) =
          print item ++ ',' :: printItems (next :: items) := rfl
      rw [hprint, List.length_append, List.length_cons] at hfuel
      rw [hprint, List.append_assoc]
      exact items?_cons (hitem fuel _ (by omega) (stops_cons (by decide)))
        (ih (List.cons_ne_nil _ _) hitems (by omega))

theorem fields?_singleton (hkey : key.toList.length < fuel)
    (h : value? fuel depth cs = some (j, '\x7d' :: rest)) :
    fields? (fuel + 1) depth (quote key ++ ':' :: cs) = some ([(key, j)], rest) := by
  have hcolon : skipSpaces (':' :: cs) = ':' :: cs := rfl
  rw [fields?, skipSpaces_quote]
  simp only [stringBody_flatMap_toList hkey, Option.bind_eq_bind, Option.bind_some, hcolon, h]
  rfl

theorem fields?_cons (hkey : key.toList.length < fuel)
    (h : value? fuel depth cs = some (j, ',' :: mid))
    (hmid : fields? fuel depth mid = some (fields, rest)) :
    fields? (fuel + 1) depth (quote key ++ ':' :: cs) = some ((key, j) :: fields, rest) := by
  have hcolon : skipSpaces (':' :: cs) = ':' :: cs := rfl
  rw [fields?, skipSpaces_quote]
  simp only [stringBody_flatMap_toList hkey, Option.bind_eq_bind, Option.bind_some, hcolon, h]
  exact Option.bind_eq_some_iff.2 ⟨_, hmid, rfl⟩

theorem fields?_printFields (hne : fields ≠ []) (h : ∀ field ∈ fields, ReadsBack depth field.2)
    (hfuel : 2 * (printFields fields).length + 2 ≤ fuel) (rest : List Char) :
    fields? fuel depth (printFields fields ++ '\x7d' :: rest) = some (fields, rest) := by
  induction fields generalizing fuel with
  | nil => exact absurd rfl hne
  | cons field fields ih =>
    obtain ⟨fuel, rfl⟩ : ∃ k, fuel = k + 1 := ⟨fuel - 1, by omega⟩
    obtain ⟨hfield, hfields⟩ := List.forall_mem_cons.1 h
    obtain ⟨key, value⟩ := field
    have hvalue : ReadsBack depth value := hfield
    have hkey := length_lt_quote key
    cases fields with
    | nil =>
      have hprint : printFields [(key, value)] = quote key ++ ':' :: print value := rfl
      rw [hprint, List.length_append, List.length_cons] at hfuel
      rw [hprint, List.append_assoc]
      exact fields?_singleton (by omega) (hvalue fuel _ (by omega) (stops_cons (by decide)))
    | cons next fields =>
      have hprint : printFields ((key, value) :: next :: fields) =
          quote key ++ ':' :: print value ++ ',' :: printFields (next :: fields) := rfl
      rw [hprint] at hfuel ⊢
      simp only [List.length_append, List.length_cons] at hfuel
      rw [List.append_assoc, List.append_assoc]
      exact fields?_cons (by omega) (hvalue fuel _ (by omega) (stops_cons (by decide)))
        (ih (List.cons_ne_nil _ _) hfields (by omega))

theorem value?_arr {c : Char} (hspace : isSpace c = false) (hc : c ≠ ']')
    (h : items? fuel depth (c :: cs) = some (items, rest)) :
    value? (fuel + 1) (depth + 1) ('[' :: c :: cs) = some (.arr items, rest) := by
  have hopen : skipSpaces ('[' :: c :: cs) = '[' :: c :: cs := rfl
  have hspaces : skipSpaces (c :: cs) = c :: cs :=
    List.dropWhile_cons_of_neg (by rw [hspace]; decide)
  rw [value?, hopen]
  simp only [hspaces]
  split
  · next he => exact absurd (List.cons.inj he).1 hc
  · rw [h, Option.map_some]

theorem value?_obj : value? (fuel + 1) (depth + 1) ('\x7b' :: '"' :: cs) =
    (fields? fuel depth ('"' :: cs)).map fun (fields, rest) => (.object fields, rest) := rfl

/-- The text of items begins with the text of the first. -/
theorem exists_printItems (item : Json) (items : List Json) :
    ∃ tail, printItems (item :: items) = print item ++ tail := by
  cases items with
  | nil => exact ⟨[], (List.append_nil _).symm⟩
  | cons next items => exact ⟨',' :: printItems (next :: items), rfl⟩

theorem exists_printFields (field : String × Json) (fields : Fields) :
    ∃ tail, printFields (field :: fields) = '"' :: tail := by
  cases fields <;> exact ⟨_, rfl⟩

theorem readsBack_arr (h : ∀ item ∈ items, Plain depth item)
    (ih : ∀ item ∈ items, ReadsBack depth item) : ReadsBack (depth + 1) (.arr items) := by
  refine readsBack_of_succ fun fuel rest hfuel _ => ?_
  have hprint : print (.arr items) ++ rest = '[' :: (printItems items ++ ']' :: rest) := by
    simp [print]
  rw [hprint]
  cases items with
  | nil => rfl
  | cons item items =>
    simp only [print, List.length_cons, List.length_append] at hfuel
    have hfits : 2 * (printItems (item :: items)).length + 2 ≤ fuel := by omega
    have hread := items?_printItems (List.cons_ne_nil _ _) ih hfits rest
    obtain ⟨c, cs, hitem, hspace, hc⟩ := (h item List.mem_cons_self).exists_print
    obtain ⟨tail, hitems⟩ := exists_printItems item items
    rw [hitems, hitem] at hread ⊢
    exact value?_arr hspace hc hread

theorem readsBack_obj (hkeys : fields.Ordered) (ih : ∀ field ∈ fields, ReadsBack depth field.2) :
    ReadsBack (depth + 1) (.obj fields) := by
  refine readsBack_of_succ fun fuel rest hfuel _ => ?_
  have hprint : print (.obj fields) ++ rest = '\x7b' :: (printFields fields ++ '\x7d' :: rest) := by
    simp [print]
  rw [hprint]
  cases fields with
  | nil => rfl
  | cons field fields =>
    simp only [print, List.length_cons, List.length_append] at hfuel
    have hfits : 2 * (printFields (field :: fields)).length + 2 ≤ fuel := by omega
    have hread := fields?_printFields (List.cons_ne_nil _ _) ih hfits rest
    obtain ⟨tail, hfields⟩ := exists_printFields field fields
    rw [hfields, List.cons_append] at hread ⊢
    have hobject : object (field :: fields) = .obj (field :: fields) :=
      congrArg Json.obj (Fields.ofList_eq_self hkeys)
    rw [value?_obj, hread, Option.map_some, ← hobject]

end

/-- **A value is read at the front of a text that starts with its text.** -/
theorem Plain.readsBack (h : Plain depth j) : ReadsBack depth j := by
  induction h with
  | null => exact readsBack_null
  | bool b => exact readsBack_bool b
  | int hlow hhigh => exact readsBack_int hlow hhigh
  | str s => exact readsBack_str s
  | arr h ih => exact readsBack_arr h ih
  | obj hkeys _ ih => exact readsBack_obj hkeys ih

/-- **The text of a value is read as the value.** -/
theorem Plain.parse?_toText (h : Plain 127 j) : parse? (toText j) = some j := by
  have hread := h.readsBack (2 * (print j).length + 2) [] (by omega) nofun
  rw [List.append_nil] at hread
  rw [parse?, toText]
  simp only [String.toList_ofList, hread]
  rfl

end QueryClient.Json
