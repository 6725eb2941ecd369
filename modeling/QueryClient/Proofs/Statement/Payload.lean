/-
  The JSON values of payloads, as they are bound.

  * `Compiled.getElem?_of_payload` and `Compiled.getElem?_of_update`: where the values of a payload
    are bound;
  * `payload_values_kept_iff`: what an insertion or an update binds is the value of its payload
    again as JSON, unless that is a whole number which does not fit 64 bits with a sign.
-/
import QueryClient.Proofs.Statement.Insertion
import QueryClient.Proofs.Value.Json
import QueryClient.Query.Call

namespace QueryClient

open Statement Piece

variable {safety : Safety} {q : Query} {pieces : List Piece}

/-- What an operation binds itself comes first among the values of its statement. -/
theorem Compiled.getElem?_of_input {n : ℕ} {v : Value} (h : Compiled safety q pieces)
    (hinput : q.operation.inputs[n]? = some v) : (boundValues pieces)[n]? = some v := by
  have hlt : n < q.operation.inputs.length := (List.getElem?_eq_some_iff.1 hinput).1
  rw [h.boundValues_eq, List.append_assoc, List.getElem?_append_left hlt, hinput]

/-- The cells of an insertion are bound row after row. -/
theorem Compiled.getElem?_of_payload {payload value : Json} {rows : List Fields} {row : Fields}
    {column : String} {i k : ℕ} (h : Compiled safety q pieces)
    (hpayload : q.operation.payload? = some payload) (hrows : payload.HasRows rows)
    (hrow : rows[i]? = some row) (hcolumn : payload.columns[k]? = some column)
    (hvalue : row.get? column = some value) :
    (boundValues pieces)[i * payload.columns.length + k]? = some (.ofJson value) := by
  have hinputs : q.operation.inputs =
      payload.rows.flatMap fun row => payload.columns.map (Rows.cell row) := by
    cases hop : q.operation with
    | insert p | upsert p =>
      rw [hop] at hpayload
      cases hpayload
      rfl
    | _ =>
      rw [hop] at hpayload
      cases hpayload
  have hcell : Rows.cell row column = .ofJson value := by
    rw [Rows.cell, hvalue]
    rfl
  refine h.getElem?_of_input ?_
  rw [hinputs, hrows.rows_eq, getElem?_flatMap_map hrow hcolumn, hcell]

/-- The values that an update sets are bound in their order. -/
theorem Compiled.getElem?_of_update {fields : Fields} {key : String} {value : Json} {k : ℕ}
    (h : Compiled safety (q.record (.update (.ok (.obj fields)))) pieces)
    (hfield : fields[k]? = some (key, value)) :
    (boundValues pieces)[k]? = some (.ofJson value) := by
  refine h.getElem?_of_input ?_
  have hinputs : (q.record (.update (.ok (.obj fields)))).operation.inputs =
      (fields.map fun field => (field.1, Value.ofJson field.2)).map Prod.snd := rfl
  rw [hinputs, List.map_map, List.getElem?_map, hfield]
  rfl

/-- **Which values of payloads are kept.**  Every value of the rows of an insertion and of the
fields of an update is bound as a value that stands for it.  So it is the same value as JSON unless
it is a number that is not kept; a whole number becomes a floating point number exactly if it does
not fit 64 bits with a sign. -/
theorem payload_values_kept_iff (safety : Safety) (q : Query) :
    (∀ j, (Value.ofJson j).StandsFor j) ∧
    (∀ payload s, q.operation.payload? = some payload → compile safety q = .ok s →
      ∀ rows, payload.HasRows rows → ∀ (i k : ℕ) (row : Fields) (column : String) (value : Json),
        rows[i]? = some row → payload.columns[k]? = some column → row.get? column = some value →
        ∃ bound, s.values[i * payload.columns.length + k]? = some bound ∧
          bound.StandsFor value) ∧
    ∀ fields s, compile safety (q.record (.update (.ok (.obj fields)))) = .ok s →
      ∀ (k : ℕ) (key : String) (value : Json), fields[k]? = some (key, value) →
        ∃ bound, s.values[k]? = some bound ∧ bound.StandsFor value := by
  refine ⟨Value.standsFor_ofJson, ?_, ?_⟩
  · intro payload s hpayload hs rows hrows i k row column value hrow hcolumn hvalue
    exact ⟨_, (compiled_of_compile hs).getElem?_of_payload hpayload hrows hrow hcolumn hvalue,
      Value.standsFor_ofJson value⟩
  · intro fields s hs k key value hfield
    exact ⟨_, (compiled_of_compile hs).getElem?_of_update hfield, Value.standsFor_ofJson value⟩

/-- A row with a small number and with the greatest one of 64 bits without a sign. -/
def Fields.largeNumber : Fields := [("age", .int 7), ("id", .int 18446744073709551615)]

/-- The row is inserted. -/
def Query.largeNumber : Query :=
  { schema := "public", table := "users", operation := .insert (.obj Fields.largeNumber) }

theorem payload_values_kept_of_large_number :
    (∃ s, compile {} Query.largeNumber = .ok s ∧ ∃ age id, s.values[0]? = some age ∧
      age.toJson = .int 7 ∧ s.values[1]? = some id ∧ ∃ x, id = .float x) ∧
    ∃ s, compile {} (Query.largeNumber.record (.update (.ok (.obj Fields.largeNumber)))) = .ok s ∧
      ∃ id, s.values[1]? = some id ∧ ∃ x, id = .float x := by
  obtain ⟨s, hs⟩ : ∃ s, compile {} Query.largeNumber = .ok s := ⟨_, rfl⟩
  obtain ⟨t, ht⟩ : ∃ t, compile {}
      (Query.largeNumber.record (.update (.ok (.obj Fields.largeNumber)))) = .ok t := ⟨_, rfl⟩
  obtain ⟨-, hcells, hfields⟩ := payload_values_kept_iff {} Query.largeNumber
  obtain ⟨age, hage, hkept⟩ := hcells _ s rfl hs _ (.one _) 0 0 _ "age" _ rfl rfl rfl
  obtain ⟨id, hid, hlost⟩ := hcells _ s rfl hs _ (.one _) 0 1 _ "id" _ rfl rfl rfl
  obtain ⟨id', hid', hlost'⟩ := hfields _ t ht 1 "id" _ rfl
  exact ⟨⟨s, hs, age, id, hage, hkept.toJson_eq_iff.2 (by decide), hid,
    (hlost.exists_float_iff _ rfl).2 (by decide)⟩,
    t, ht, id', hid', (hlost'.exists_float_iff _ rfl).2 (by decide)⟩

/-- The greatest number of 64 bits without a sign becomes the floating point number above it. -/
theorem large_number_changed :
    (Value.ofJson (.int 18446744073709551615)).toJson = .float (.ofInt 18446744073709551616) ∧
    (Value.ofJson (.int 18446744073709551615)).toJson ≠ .int 18446744073709551615 ∧
    ∃ s, compile {} Query.largeNumber = .ok s ∧
      s.values = [.int 7, .float (.ofInt 18446744073709551616)] :=
  ⟨rfl, nofun, _, rfl, rfl⟩

end QueryClient
