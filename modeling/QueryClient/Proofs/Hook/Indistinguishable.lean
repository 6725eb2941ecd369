/-
  Hooks cannot tell one secret from another, and see everything else.

  * `Value.Akin`: two bound values are the same but for secret texts, at any depth;
  * `Value.Akin.redact_toJson`: such values are the same JSON once they are redacted;
  * `Json.at?` is the part of a JSON value at a path, and `Json.face` what is seen of a part
    without looking into it;
  * `Json.at?_redact` and `Json.face_redact`: redaction leaves all parts where they were, and all
    faces as they were but those of secret texts;
  * `secrets_indistinguishable`: both facts for the events that hooks are given.
-/
import QueryClient.Proofs.Hook.Redacted
import QueryClient.Proofs.Statement.Compiled

namespace QueryClient

open QueryClient.Text

/-! ## Values that differ in secrets only -/

/-- Two JSON values that are the same but for texts, at any depth, in whose places both have a
secret.  Keys are the same. -/
inductive Json.Akin : Json → Json → Prop
  | refl (j : Json) : Akin j j
  | secret {s t : String} : looksSecret s → looksSecret t → Akin (.str s) (.str t)
  | arr {items items' : List Json} : items.length = items'.length →
      (∀ i (h : i < items.length) (h' : i < items'.length), Akin items[i] items'[i]) →
      Akin (.arr items) (.arr items')
  | obj {fields fields' : Fields} : fields.keys = fields'.keys →
      (∀ i (h : i < fields.length) (h' : i < fields'.length), Akin fields[i].2 fields'[i].2) →
      Akin (.obj fields) (.obj fields')

/-- Two bound values that are the same but for secret texts. -/
inductive Value.Akin : Value → Value → Prop
  | refl (v : Value) : Akin v v
  | secret {s t : String} : looksSecret s → looksSecret t → Akin (.text s) (.text t)
  | json {j k : Json} : j.Akin k → Akin (.json j) (.json k)
  | array {items items' : List Value} : items.length = items'.length →
      (∀ i (h : i < items.length) (h' : i < items'.length), Akin items[i] items'[i]) →
      Akin (.array items) (.array items')

theorem Json.Akin.redact_eq {j k : Json} (h : j.Akin k) : j.redact = k.redact := by
  induction h with
  | refl => rfl
  | secret hs ht => rw [redact, redact, if_pos hs, if_pos ht]
  | arr hlength _ ih =>
    rw [redact, redact, redactItems_eq_map, redactItems_eq_map]
    refine congrArg Json.arr (List.ext_getElem (by simp [hlength]) fun i h h' => ?_)
    rw [List.getElem_map, List.getElem_map]
    exact ih i _ _
  | @obj fields fields' hkeys _ ih =>
    have hlength : fields.length = fields'.length := by
      simpa [Fields.keys] using congrArg List.length hkeys
    rw [redact, redact, redactFields_eq_map, redactFields_eq_map]
    refine congrArg Json.obj (List.ext_getElem (by simp [hlength]) fun i h h' => ?_)
    rw [List.length_map] at h h'
    have hkey : fields.keys[i]? = fields'.keys[i]? := by rw [hkeys]
    rw [List.getElem_map, List.getElem_map, ih i h h']
    simpa [Fields.keys, h, h'] using hkey

/-- **Values that differ in secrets only are the same JSON once they are redacted.** -/
theorem Value.Akin.redact_toJson {v w : Value} (h : v.Akin w) :
    v.toJson.redact = w.toJson.redact := by
  induction h with
  | refl => rfl
  | secret hs ht => exact (Json.Akin.secret hs ht).redact_eq
  | json hj => exact hj.redact_eq
  | array hlength _ ih =>
    rw [toJson, toJson, toJsonList_eq_map, toJsonList_eq_map, Json.redact, Json.redact,
      Json.redactItems_eq_map, Json.redactItems_eq_map]
    refine congrArg Json.arr (List.ext_getElem (by simp [hlength]) fun i h h' => ?_)
    simp only [List.getElem_map]
    exact ih i _ _

/-! ## Parts of JSON values -/

namespace Json

/-- One step into a JSON value. -/
inductive Step where
  | item (i : Nat)
  | field (key : String)

/-- The part that a step leads to. -/
def step? : Json → Step → Option Json
  | .arr items, .item i => items[i]?
  | .obj fields, .field key => Fields.get? fields key
  | _, _ => none

/-- The part at the end of a path. -/
def at? : Json → List Step → Option Json
  | j, [] => some j
  | j, s :: path => (j.step? s).bind fun part => part.at? path

/-- What is seen of a JSON value without looking into its parts. -/
inductive Face where
  | null
  | bool (b : Bool)
  | int (i : Int)
  | float (x : Number.Double)
  | text (s : String)
  | array (length : Nat)
  | object (keys : List String)

def face : Json → Face
  | .null => .null
  | .bool b => .bool b
  | .int i => .int i
  | .float x => .float x
  | .str s => .text s
  | .arr items => .array items.length
  | .obj fields => .object (Fields.keys fields)

/-- A face with the mark for a secret in the place of one, and otherwise as it was. -/
def Face.redact : Face → Face
  | .text s => .text (if looksSecret s then "[REDACTED]" else s)
  | f => f

theorem face_redact (j : Json) : j.redact.face = j.face.redact := by
  cases j with
  | arr items =>
    rw [redact, redactItems_eq_map]
    simp [face, Face.redact]
  | obj fields =>
    rw [redact, redactFields_eq_map]
    simp [face, Face.redact, Fields.keys, Function.comp_def]
  | null | bool b | int i | float x | str s => rfl

theorem step?_redact (j : Json) (s : Step) : j.redact.step? s = (j.step? s).map redact := by
  cases j with
  | arr items =>
    rw [redact, redactItems_eq_map]
    cases s with
    | item i => exact List.getElem?_map
    | field key => rfl
  | obj fields =>
    rw [redact, redactFields_eq_map]
    cases s with
    | item i => rfl
    | field key => simp [step?, Fields.get?, List.find?_map, Function.comp_def]
  | null | bool b | int i | float x | str s' => cases s <;> rfl

/-- Redaction leaves all parts where they were. -/
theorem at?_redact (j : Json) (path : List Step) :
    j.redact.at? path = (j.at? path).map redact := by
  induction path generalizing j with
  | nil => rfl
  | cons s path ih =>
    rw [at?, at?, step?_redact]
    cases j.step? s with
    | none => rfl
    | some part => exact ih part

/-- What is redacted stays as it is. -/
theorem redact_redact : ∀ j : Json, j.redact.redact = j.redact
  | .str s => congrArg Json.str (if_neg (not_looksSecret_redact_text s))
  | .arr items => by
    rw [redact, redactItems_eq_map, redact, redactItems_eq_map, List.map_map]
    exact congrArg Json.arr (List.map_congr_left fun item _ => redact_redact item)
  | .obj fields => by
    rw [redact, redactFields_eq_map, redact, redactFields_eq_map, List.map_map]
    refine congrArg Json.obj (List.map_congr_left fun field _ => ?_)
    exact congrArg (field.1, ·) (redact_redact field.2)
  | .null | .bool _ | .int _ | .float _ => rfl
termination_by j => j
decreasing_by
  · have := List.sizeOf_lt_of_mem ‹item ∈ items›
    simp only [arr.sizeOf_spec]
    omega
  · have := List.sizeOf_lt_of_mem ‹field ∈ fields›
    cases field
    simp only [Prod.mk.sizeOf_spec, obj.sizeOf_spec] at *
    omega

end Json

/-! ## Events -/

/-- The part at a path of the bound value with an index, as an event shows it. -/
def StatementEvent.part? (e : StatementEvent) (i : Nat) (path : List Json.Step) : Option Json :=
  e.params[i]?.bind fun param => param.at? path

/-- **Hooks cannot tell secrets apart**: bound values that are the same but for secret texts make
the same event.  All else is shown where it stands in the JSON of the bound values and as it
stands there, and redacting an event again changes nothing. -/
theorem secrets_indistinguishable (operation sql : String) :
    (∀ values values', List.Forall₂ Value.Akin values values' →
      StatementEvent.of operation sql values = StatementEvent.of operation sql values') ∧
    (∀ values i path, ((StatementEvent.of operation sql values).part? i path).map Json.face =
      (values[i]?.bind fun v => v.toJson.at? path).map fun part => part.face.redact) ∧
    ∀ j : Json, j.redact.redact = j.redact := by
  refine ⟨fun values values' h => ?_, fun values i path => ?_, Json.redact_redact⟩
  · have hparams : values.map (fun v => v.toJson.redact) =
        values'.map fun v => v.toJson.redact :=
      map_eq_of_forall₂ (h.imp fun _ _ hv => hv.redact_toJson)
    rw [StatementEvent.of, StatementEvent.of, hparams]
  · rw [StatementEvent.part?, StatementEvent.of, List.getElem?_map]
    cases values[i]? with
    | none => rfl
    | some v =>
      rw [Option.map_some, Option.bind_some, Option.bind_some, Json.at?_redact, Option.map_map]
      exact congrArg (Option.map · _) (funext Json.face_redact)

/-- A text and a JSON object with a list in it, both with a secret. -/
def Value.credentials (password token : String) : List Value :=
  [.text password, .array [.json (.obj [("tokens", .arr [.str token, .bool true])])]]

theorem secrets_indistinguishable_of_credentials :
    List.Forall₂ Value.Akin (Value.credentials "password=hunter2" "token: 7")
      (Value.credentials "pwd=swordfish" "api_key=8") ∧
    StatementEvent.of "select" "SELECT $1, $2" (Value.credentials "password=hunter2" "token: 7") =
      StatementEvent.of "select" "SELECT $1, $2" (Value.credentials "pwd=swordfish" "api_key=8") ∧
    ((StatementEvent.of "select" "SELECT $1, $2"
        (Value.credentials "password=hunter2" "token: 7")).part? 1
      [.item 0, .field "tokens", .item 1]).map Json.face = some (.bool true) := by
  have htokens : Json.Akin (.arr [.str "token: 7", .bool true])
      (.arr [.str "api_key=8", .bool true]) := by
    refine .arr rfl fun i h _ => ?_
    match i, h with
    | 0, _ => exact .secret (by decide +kernel) (by decide +kernel)
    | 1, _ => exact .refl _
  have hobject : Json.Akin (.obj [("tokens", .arr [.str "token: 7", .bool true])])
      (.obj [("tokens", .arr [.str "api_key=8", .bool true])]) := by
    refine .obj rfl fun i h _ => ?_
    match i, h with
    | 0, _ => exact htokens
  have hakin : List.Forall₂ Value.Akin (Value.credentials "password=hunter2" "token: 7")
      (Value.credentials "pwd=swordfish" "api_key=8") := by
    refine .cons (.secret (by decide +kernel) (by decide +kernel)) (.cons (.array rfl ?_) .nil)
    intro i h _
    match i, h with
    | 0, _ => exact .json hobject
  obtain ⟨hsame, hshown, -⟩ := secrets_indistinguishable "select" "SELECT $1, $2"
  exact ⟨hakin, hsame _ _ hakin, hshown _ 1 [.item 0, .field "tokens", .item 1]⟩

end QueryClient
