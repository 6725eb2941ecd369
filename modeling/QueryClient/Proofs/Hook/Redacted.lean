/-
  What hooks can learn from the bound values of a statement.

  * `Json.Holds`: a string stands somewhere in a JSON value, as a text or as a key of an object,
    at any depth;
  * `Json.holds_redact_iff`: redaction leaves every string where it was, keys as they are and
    texts unless they look like a secret;
  * `Value.exists_holds_key_iff`: keys come from bound JSON values only;
  * `secrets_in_keys_only`: an event for a statement is free of secrets exactly if no bound JSON
    value has a key that looks like one.
-/
import QueryClient.Hook.Basic
import QueryClient.Proofs.Value.Json
import Mathlib.Data.List.Basic

namespace QueryClient

open QueryClient.Text

namespace Json

/-! ## Strings at any depth -/

/-- What a string is in a JSON value. -/
inductive Place where
  /-- A value of its own. -/
  | text
  /-- The key of a field. -/
  | key
  deriving DecidableEq

/-- A string stands in a JSON value, behind the items and fields that a path names. -/
inductive Holds : Json → (path : List Nat) → Place → String → Prop
  | text (s : String) : Holds (.str s) [] .text s
  | key {fields : Fields} {i : Nat} {k : String} {v : Json} :
      fields[i]? = some (k, v) → Holds (.obj fields) [i] .key k
  | item {items : List Json} {i : Nat} {item : Json} {path : List Nat} {place : Place}
      {s : String} : items[i]? = some item → Holds item path place s →
      Holds (.arr items) (i :: path) place s
  | field {fields : Fields} {i : Nat} {k : String} {v : Json} {path : List Nat} {place : Place}
      {s : String} : fields[i]? = some (k, v) → Holds v path place s →
      Holds (.obj fields) (i :: path) place s

/-- What redaction makes of a string. -/
def Place.redact : Place → String → String
  | .text, s => if looksSecret s then redacted else s
  | .key, k => k

/-- The mark for a secret is no secret. -/
theorem not_looksSecret_redacted : ¬ looksSecret redacted := by decide +kernel

theorem not_looksSecret_redact_text (s : String) : ¬ looksSecret (Place.redact .text s) := by
  rw [Place.redact]
  split_ifs with h
  · exact not_looksSecret_redacted
  · exact h

/-! ## Redaction, string by string -/

theorem redactItems_eq_map : ∀ items : List Json, redactItems items = items.map redact
  | [] => rfl
  | item :: rest => by rw [redactItems, redactItems_eq_map rest, List.map_cons]

theorem redactFields_eq_map : ∀ fields : Fields,
    redactFields fields = fields.map fun f => (f.1, f.2.redact)
  | [] => rfl
  | (k, v) :: rest => by rw [redactFields, redactFields_eq_map rest, List.map_cons]

/-- A field of a redacted object is a field of the object, redacted. -/
theorem field_of_redact {fields fields' : Fields} {i : ℕ} {k : String} {v : Json}
    (hr : (Json.obj fields).redact = .obj fields') (hf : fields'[i]? = some (k, v)) :
    ∃ v', fields[i]? = some (k, v') ∧ v'.redact = v := by
  rw [Json.redact, redactFields_eq_map] at hr
  rw [← Json.obj.inj hr, List.getElem?_map] at hf
  obtain ⟨⟨_, v'⟩, hkv, he⟩ := Option.map_eq_some_iff.1 hf
  cases he
  exact ⟨v', hkv, rfl⟩

theorem Holds.redact {j : Json} {path : List Nat} {place : Place} {s : String}
    (h : j.Holds path place s) : j.redact.Holds path place (place.redact s) := by
  induction h with
  | text s =>
    rw [Json.redact]
    exact .text _
  | key hf =>
    rw [Json.redact, redactFields_eq_map]
    exact .key (by rw [List.getElem?_map, hf]; rfl)
  | item hi _ ih =>
    rw [Json.redact, redactItems_eq_map]
    exact .item (by rw [List.getElem?_map, hi]; rfl) ih
  | field hf _ ih =>
    rw [Json.redact, redactFields_eq_map]
    exact .field (by rw [List.getElem?_map, hf]; rfl) ih

theorem Holds.of_redact {j : Json} {path : List Nat} {place : Place} {s : String}
    (h : j.redact.Holds path place s) : ∃ t, j.Holds path place t ∧ place.redact t = s := by
  generalize hr : j.redact = r at h
  induction h generalizing j with
  | text s =>
    cases j with
    | str t =>
      rw [Json.redact] at hr
      exact ⟨t, .text t, Json.str.inj hr⟩
    | _ => simp [Json.redact] at hr
  | key hf =>
    cases j with
    | obj fields =>
      obtain ⟨v, hkv, -⟩ := field_of_redact hr hf
      exact ⟨_, .key hkv, rfl⟩
    | _ => simp [Json.redact] at hr
  | item hi _ ih =>
    cases j with
    | arr items =>
      rw [Json.redact, redactItems_eq_map] at hr
      rw [← Json.arr.inj hr, List.getElem?_map] at hi
      obtain ⟨item, hitem, he⟩ := Option.map_eq_some_iff.1 hi
      obtain ⟨t, ht, hs⟩ := ih he
      exact ⟨t, .item hitem ht, hs⟩
    | _ => simp [Json.redact] at hr
  | field hf _ ih =>
    cases j with
    | obj fields =>
      obtain ⟨v, hkv, he⟩ := field_of_redact hr hf
      obtain ⟨t, ht, hs⟩ := ih he
      exact ⟨t, .field hkv ht, hs⟩
    | _ => simp [Json.redact] at hr

/-- Redaction moves, adds and removes no string: at every place stands what redaction makes of
the string that stood there. -/
theorem holds_redact_iff {j : Json} {path : List Nat} {place : Place} {s : String} :
    j.redact.Holds path place s ↔ ∃ t, j.Holds path place t ∧ place.redact t = s :=
  ⟨Holds.of_redact, fun ⟨_, h, he⟩ => he ▸ h.redact⟩

end Json

/-! ## Keys of bound values -/

namespace Value

/-- A JSON value is bound, by itself or as an item of an array. -/
inductive Embeds : Value → Json → Prop
  | json (j : Json) : Embeds (.json j) j
  | item {items : List Value} {v : Value} {j : Json} : v ∈ items → Embeds v j →
      Embeds (.array items) j

theorem Embeds.exists_holds {v : Value} {j : Json} {path : List Nat} {place : Json.Place}
    {s : String} (h : v.Embeds j) (hs : j.Holds path place s) :
    ∃ path, v.toJson.Holds path place s := by
  induction h with
  | json => exact ⟨path, hs⟩
  | item hv _ ih =>
    obtain ⟨path, ih⟩ := ih hs
    obtain ⟨i, hi⟩ := List.mem_iff_getElem?.1 hv
    refine ⟨i :: path, ?_⟩
    rw [toJson, toJsonList_eq_map]
    exact .item (by rw [List.getElem?_map, hi]; rfl) ih

theorem exists_embeds_of_key {k : String} : ∀ (v : Value) {path : List Nat},
    v.toJson.Holds path .key k → ∃ j path, v.Embeds j ∧ Json.Holds j path .key k
  | .json j, path, h => ⟨j, path, .json j, h⟩
  | .array items, _, h => by
    rw [toJson, toJsonList_eq_map] at h
    cases h with
    | item hi hk =>
      rw [List.getElem?_map] at hi
      obtain ⟨v, hv, rfl⟩ := Option.map_eq_some_iff.1 hi
      have hmem : v ∈ items := List.mem_of_getElem? hv
      obtain ⟨j, path, hj, hp⟩ := exists_embeds_of_key v hk
      exact ⟨j, path, .item hmem hj, hp⟩
  | .float x, _, h => by
    rw [toJson, Json.ofDouble] at h
    split at h <;> cases h
  | .null, _, h | .bool _, _, h | .int _, _, h | .decimal _, _, h | .text _, _, h
  | .uuid _, _, h | .timestamp _, _, h | .bytes _, _, h => by
    rw [toJson] at h
    cases h
termination_by v => v

/-- A bound value has a key exactly if a JSON value bound in it does. -/
theorem exists_holds_key_iff {v : Value} {k : String} :
    (∃ path, v.toJson.Holds path .key k) ↔
      ∃ j path, v.Embeds j ∧ Json.Holds j path .key k :=
  ⟨fun ⟨_, h⟩ => exists_embeds_of_key v h, fun ⟨_, _, hj, h⟩ => hj.exists_holds h⟩

end Value

/-! ## Events -/

/-- A string stands in the bound values that an event shows, in the one with an index. -/
def StatementEvent.Shows (e : StatementEvent) (i : Nat) (path : List Nat) (place : Json.Place)
    (s : String) : Prop :=
  ∃ param, e.params[i]? = some param ∧ param.Holds path place s

/-- In the values of an event stands, string by string, what redaction makes of the bound
values. -/
theorem StatementEvent.shows_of_iff {operation sql : String} {values : List Value} {i : Nat}
    {path : List Nat} {place : Json.Place} {s : String} :
    (StatementEvent.of operation sql values).Shows i path place s ↔
      ∃ v t, values[i]? = some v ∧ v.toJson.Holds path place t ∧ place.redact t = s := by
  simp only [Shows, StatementEvent.of, List.getElem?_map, Option.map_eq_some_iff]
  constructor
  · rintro ⟨_, ⟨v, hv, rfl⟩, h⟩
    obtain ⟨t, ht⟩ := Json.holds_redact_iff.1 h
    exact ⟨v, t, hv, ht⟩
  · rintro ⟨v, t, hv, ht⟩
    exact ⟨_, ⟨v, hv, rfl⟩, Json.holds_redact_iff.2 ⟨t, ht⟩⟩

/-- Of the strings that an event shows, a text never looks like a secret: the mark stands for one
that did, and any other text stands as it was bound.  Keys stand as they were bound, too, so that
an event is free of secrets exactly if no bound JSON value has a key that looks like one. -/
theorem secrets_in_keys_only (operation sql : String) (values : List Value) :
    (∀ i path s, (StatementEvent.of operation sql values).Shows i path .text s ↔
      ∃ v t, values[i]? = some v ∧ v.toJson.Holds path .text t ∧
        s = if looksSecret t then "[REDACTED]" else t) ∧
    (∀ i path s, (StatementEvent.of operation sql values).Shows i path .text s →
      ¬ looksSecret s) ∧
    ((∀ i path place s, (StatementEvent.of operation sql values).Shows i path place s →
        ¬ looksSecret s) ↔
      ∀ v ∈ values, ∀ j, v.Embeds j → ∀ path k, j.Holds path .key k → ¬ looksSecret k) := by
  have htext : ∀ i path s, (StatementEvent.of operation sql values).Shows i path .text s →
      ¬ looksSecret s := by
    intro i path s h
    obtain ⟨v, t, -, -, rfl⟩ := StatementEvent.shows_of_iff.1 h
    exact Json.not_looksSecret_redact_text t
  refine ⟨fun i path s => ?_, htext, fun h v hv j hj path k hk => ?_, fun h i path place s hs => ?_⟩
  · rw [StatementEvent.shows_of_iff]
    exact exists_congr fun v => exists_congr fun t => and_congr_right fun _ =>
      and_congr_right fun _ => eq_comm
  · obtain ⟨path, hk⟩ := Value.exists_holds_key_iff.2 ⟨j, path, hj, hk⟩
    obtain ⟨i, hi⟩ := List.mem_iff_getElem?.1 hv
    exact h i path .key k (StatementEvent.shows_of_iff.2 ⟨v, k, hi, hk, rfl⟩)
  · cases place with
    | text => exact htext i path s hs
    | key =>
      obtain ⟨v, t, hv, ht, rfl⟩ := StatementEvent.shows_of_iff.1 hs
      obtain ⟨j, path, hj, hk⟩ := Value.exists_holds_key_iff.1 ⟨path, ht⟩
      exact h v (List.mem_of_getElem? hv) j hj path t hk

/-- A key that looks like a secret is shown as it was bound. -/
theorem secret_shown_in_key :
    ∃ i path place s, looksSecret s ∧
      (StatementEvent.of "select" "SELECT * FROM \"public\".\"users\" WHERE \"meta\" = $1"
        [.json (.obj [("password=hunter2", .int 1)])]).Shows i path place s :=
  ⟨0, [0], .key, "password=hunter2", by decide +kernel,
    _, rfl, Json.Holds.key (v := .int 1) rfl⟩

end QueryClient
