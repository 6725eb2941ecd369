/-
  Values bound as they are and by way of JSON.

  * `Value.Plain` holds of the values that data is made of, and of arrays of them;
  * `encodePlain_of_spelled`: a value that JSON gives as a text is bound like the text;
  * `encode_ofJson_toJson`: what is bound of a value is bound of its JSON as well.
-/
import QueryClient.Proofs.Value.Json
import QueryClient.Proofs.Wire.Scalars

namespace QueryClient

open QueryClient.Number

/-- Nothing, a truth value, a number that can be held, a text, an identifier, or an array of such
values. -/
inductive Value.Plain : Value → Prop
  | null : Plain .null
  | bool (b : Bool) : Plain (.bool b)
  | int {i : ℤ} : isSigned 64 i → Plain (.int i)
  | float {x : Double} : x.isFinite → Plain (.float x)
  | decimal {d : Decimal} : d.Fits → Plain (.decimal d)
  | text (s : String) : Plain (.text s)
  | uuid (u : Uuid) : Plain (.uuid u)
  | array {items : List Value} : (∀ v ∈ items, Plain v) → Plain (.array items)

namespace Wire

variable {type : SqlType} {v : Value} {bound : List UInt8}

/-! ## Values that are texts as JSON -/

/-- A value that JSON gives as a text: the text is what the value is bound as where texts are
bound, and it spells the value where a scalar is. -/
structure Spelled (v : Value) (text : String) : Prop where
  toJson_eq : v.toJson = .str text
  textOf?_eq : textOf? v = some text
  jsonOf?_eq : jsonOf? v = some (.str text)
  encodeScalar_eq : ∀ s bound, encodeScalar s v = some (.ok bound) →
    encodeText s text = some (.ok bound)

/-- **A value that JSON gives as a text is bound like the text.** -/
theorem encodePlain_of_spelled {text : String} (hv : Spelled v text)
    (h : encodePlain type v = .ok bound) : encodePlain type (.text text) = .ok bound := by
  have htext : textOf? (.text text) = some text := rfl
  have hjson : jsonOf? (.text text) = some (.str text) := rfl
  unfold encodePlain at h ⊢
  dsimp only at h ⊢
  split at h
  · rw [hv.jsonOf?_eq] at h
    rwa [hjson]
  · rw [hv.jsonOf?_eq] at h
    rwa [hjson]
  · split_ifs at h ⊢ with hlike
    · rw [hv.textOf?_eq] at h
      rwa [htext]
    · split at h
      · next s _ _ =>
        cases hscalar : encodeScalar s v with
        | none =>
          rw [hscalar] at h
          cases h
        | some encoded =>
          rw [hscalar] at h
          obtain rfl : encoded = .ok bound := h
          have htyped : encodeScalar s (.text text) = some (.ok bound) :=
            hv.encodeScalar_eq s bound hscalar
          simp only [htyped]
          rfl
      · cases h

/-- A zero is bound without its sign and its places. -/
theorem encodeDecimal_make (d : Decimal) :
    encodeDecimal (.make d.negative d.coefficient d.scale) = encodeDecimal d := by
  by_cases h : d.coefficient = 0
  · have hmake : (Decimal.make d.negative d.coefficient d.scale).coefficient = 0 := h
    rw [encodeDecimal, encodeDecimal, Numeric.ofDecimal, Numeric.ofDecimal, if_pos h, if_pos hmake]
  · rw [Decimal.make_eq_self fun hzero => absurd hzero h]

theorem spelled_decimal {d : Decimal} (h : d.Fits) : Spelled (.decimal d) d.toText := by
  refine ⟨rfl, rfl, rfl, fun s bound hbound => ?_⟩
  obtain ⟨rfl, he⟩ := Option.ite_none_right_eq_some.1 hbound
  cases he
  rw [encodeText, readDecimal, d.trim_toText, h.parse?_toText, ← encodeDecimal_make d]
  rfl

theorem spelled_uuid (u : Uuid) : Spelled (.uuid u) u.toText := by
  refine ⟨rfl, rfl, rfl, fun s bound hbound => ?_⟩
  obtain ⟨rfl, he⟩ := Option.ite_none_right_eq_some.1 hbound
  cases he
  rw [encodeText, u.parse?_trim_toText]
  rfl

/-! ## Values by way of JSON -/

theorem encodeNullable_of_spelled {text : String} {bound : Option (List UInt8)}
    (hv : Spelled v text) (hnull : v ≠ .null) (hjson : ∀ j, v ≠ .json j)
    (h : encodeNullable type v = .ok bound) :
    encodeNullable type (Value.ofJson v.toJson) = .ok bound := by
  rw [encodeNullable_eq hnull hjson] at h
  rw [hv.toJson_eq, Value.ofJson, encodeNullable_text]
  cases hplain : encodePlain type v with
  | error e =>
    rw [hplain] at h
    cases h
  | ok bytes =>
    rw [hplain] at h
    rw [encodePlain_of_spelled hv hplain]
    exact h

/-- A list that is bound to anything but an array is bound as JSON. -/
theorem encodePlain_array_ne_ok {items : List Value} (hjson : type ≠ .scalar .json)
    (hjsonb : type ≠ .scalar .jsonb) : encodePlain type (.array items) ≠ .ok bound := by
  unfold encodePlain
  dsimp only
  split
  · exact absurd rfl hjson
  · exact absurd rfl hjsonb
  · split_ifs
    · nofun
    · split <;> nofun

/-- What is bound to a parameter of one value is bound by way of JSON as well. -/
theorem encodeNullable_ofJson_toJson {bound : Option (List UInt8)} (hv : v.Plain)
    (h : encodeNullable type v = .ok bound) :
    encodeNullable type (Value.ofJson v.toJson) = .ok bound := by
  cases hv with
  | null => exact h
  | bool b => exact h
  | text s => exact h
  | int hi => rwa [Value.toJson, Value.ofJson_int_of_isSigned hi]
  | float hx => rwa [(Value.toJson_float_eq_iff _).2 hx]
  | decimal hd => exact encodeNullable_of_spelled (spelled_decimal hd) nofun nofun h
  | uuid u => exact encodeNullable_of_spelled (spelled_uuid u) nofun nofun h
  | @array items _ =>
    by_cases hjson : type = .scalar .json
    · subst hjson
      exact h
    by_cases hjsonb : type = .scalar .jsonb
    · subst hjsonb
      exact h
    rw [encodeNullable_eq (v := .array items) nofun nofun] at h
    cases hplain : encodePlain type (.array items) with
    | error e =>
      rw [hplain] at h
      cases h
    | ok bytes => exact absurd hplain (encodePlain_array_ne_ok hjson hjsonb)

/-- What is made of some elements is made of others that are as good. -/
theorem mapM_map_of_forall {ε α β : Type} {f : α → Except ε β} {g : α → α} {xs : List α}
    {ys : List β} (hg : ∀ x ∈ xs, ∀ y, f x = .ok y → f (g x) = .ok y) (h : xs.mapM f = .ok ys) :
    (xs.map g).mapM f = .ok ys := by
  induction xs generalizing ys with
  | nil => exact h
  | cons x xs ih =>
    obtain ⟨hx, hxs⟩ := List.forall_mem_cons.1 hg
    rw [List.mapM_cons] at h
    cases hy : f x with
    | error e =>
      rw [hy] at h
      cases h
    | ok y =>
      cases hys : xs.mapM f with
      | error e =>
        rw [hy, hys] at h
        cases h
      | ok ys' =>
        rw [List.map_cons, List.mapM_cons, hx y hy, ih hxs hys]
        rw [hy, hys] at h
        exact h

theorem encode_array_of_none {name : TypeName} {element : SqlType} (h : itemsOf? v = none) :
    encode (.array name element) v = encodeNullable (.array name element) v := by
  rw [encode, h]

theorem encode_array_of_some {name : TypeName} {element : SqlType} {items : List Value}
    (h : itemsOf? v = some items) : encode (.array name element) v =
      (items.mapM (encode element)).map fun bounds => some (arrayBytes name element bounds) := by
  rw [encode, h]

/-- A list stays one by way of JSON, and nothing else becomes one. -/
theorem itemsOf?_ofJson_toJson (hv : v.Plain) : itemsOf? (Value.ofJson v.toJson) =
    (itemsOf? v).map (List.map fun item => Value.ofJson item.toJson) := by
  cases hv with
  | int hi =>
    rw [Value.toJson, Value.ofJson_int_of_isSigned hi]
    rfl
  | float hx =>
    rw [(Value.toJson_float_eq_iff _).2 hx]
    rfl
  | @array items _ =>
    have hread : itemsOf? (.json (.arr (items.map Value.toJson))) =
        some ((items.map Value.toJson).map Value.ofJson) := rfl
    rw [Value.toJson, Value.ofJson, Value.toJsonList_eq_map, hread, List.map_map]
    rfl
  | _ => rfl

theorem plain_of_mem_items {items : List Value} (hv : v.Plain) (h : itemsOf? v = some items) :
    ∀ item ∈ items, item.Plain := by
  cases hv with
  | array hitems =>
    cases h
    exact hitems
  | _ => cases h

/-- **What is bound of a value is bound of its JSON as well**, whatever the type of the parameter
is: the same bytes, or null both times. -/
theorem encode_ofJson_toJson (hv : v.Plain) {bound : Option (List UInt8)}
    (h : encode type v = .ok bound) : encode type (Value.ofJson v.toJson) = .ok bound := by
  induction type generalizing v bound with
  | domain name base ih =>
    rw [encode] at h ⊢
    exact ih hv h
  | array name element ih =>
    have hback := itemsOf?_ofJson_toJson hv
    cases hlist : itemsOf? v with
    | none =>
      rw [hlist] at hback
      rw [encode_array_of_none hlist] at h
      rw [encode_array_of_none hback]
      exact encodeNullable_ofJson_toJson hv h
    | some items =>
      rw [hlist] at hback
      rw [encode_array_of_some hlist] at h
      rw [encode_array_of_some hback]
      cases hbounds : items.mapM (encode element) with
      | error e =>
        rw [hbounds] at h
        cases h
      | ok bounds =>
        have hitems := plain_of_mem_items hv hlist
        rw [mapM_map_of_forall (fun item hmem _ => ih (hitems item hmem)) hbounds, ← hbounds]
        exact h
  | _ => exact encodeNullable_ofJson_toJson hv h

/-- A domain over arrays of numbers. -/
def SqlType.amounts : SqlType :=
  .domain ⟨"public", "amounts", 16384⟩ (.array ⟨"pg_catalog", "_numeric", 1231⟩ (.scalar .numeric))

theorem encode_ofJson_toJson_of_amounts :
    ∃ bound, encode SqlType.amounts
        (.array [.decimal ⟨true, 150, 2⟩, .text " 1e2 ", .int 7, .null]) = .ok bound ∧
      encode SqlType.amounts (.json (.arr [.str "-1.50", .str " 1e2 ", .int 7, .null])) =
        .ok bound := by
  obtain ⟨bound, hbound⟩ : ∃ bound, encode SqlType.amounts
      (.array [.decimal ⟨true, 150, 2⟩, .text " 1e2 ", .int 7, .null]) = .ok bound := ⟨_, rfl⟩
  refine ⟨bound, hbound, encode_ofJson_toJson (.array ?_) hbound⟩
  simp only [List.forall_mem_cons, List.not_mem_nil, false_imp_iff, implies_true, and_true]
  exact ⟨.decimal ⟨by decide, by decide⟩, .text _, .int (by decide), .null⟩

end Wire

end QueryClient
