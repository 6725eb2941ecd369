/-
  Settings written as JSON and read back.

  Everything comes back as it was, but the spans of time: these are written in whole milliseconds,
  of which 64 bits are kept, so that a long span comes back as a short one.

  * `Json.readRecord_obj`: what a record reads from an object with known keys;
  * `Config.read_toJson`: what the settings come back as;
  * `Config.plain_toJson`: their JSON is read back from its text;
  * `Config.reading_stored`: they come back as they were, up to the part of a millisecond in each
    span, exactly if no span has more milliseconds than 64 bits hold.
-/
import QueryClient.Config.Basic
import QueryClient.Proofs.Json.Printed
import QueryClient.Proofs.Statement.Compiled

namespace QueryClient

open QueryClient.Json (Reader RecordField readRecord)

/-! ## Records -/

namespace Json
variable {σ : Type} {fields : List (RecordField σ)} {entries : Fields} {puts : List (σ → σ)}

/-- The value of a key goes into a record under construction. -/
def storeEntry (fields : List (RecordField σ)) (s : σ) : String × Json → Except Misfit σ
  | (k, v) =>
    match fields.find? (·.name = k) with
    | some f => f.read v s
    | none => .ok s

/-- The value of a key is stored, whatever the record has so far. -/
def Stores (fields : List (RecordField σ)) (entry : String × Json) (put : σ → σ) : Prop :=
  ∀ s, storeEntry fields s entry = .ok (put s)

theorem stores_of {α : Type} {key : String} {presence : Presence} {r : Reader α}
    {store : α → σ → σ} {value : Json} {a : α} {put : σ → σ}
    (hfind : fields.find? (·.name = key) = some (.of key presence r store))
    (hread : r value = .ok a) (hput : put = store a) : Stores fields (key, value) put := by
  intro s
  rw [storeEntry, hfind, hput]
  exact congrArg (Except.map (store · s)) hread

theorem foldlM_storeEntry (h : List.Forall₂ (Stores fields) entries puts) (start : σ) :
    entries.foldlM (storeEntry fields) start = .ok (puts.foldl (fun s put => put s) start) := by
  induction h generalizing start with
  | nil => rfl
  | cons hstores _ ih =>
    rw [List.foldlM_cons, hstores start]
    exact ih _

/-- **A record from an object** stores the value of each key in turn. -/
theorem readRecord_obj (what : String) (start : σ) (h : List.Forall₂ (Stores fields) entries puts)
    (hdefaults : ∀ f ∈ fields, f.presence ≠ .required) :
    readRecord what fields start (.obj entries) = .ok (puts.foldl (fun s put => put s) start) := by
  have hmissing : (fields.find? fun f =>
      f.presence = .required ∧ readRecord.isAbsent entries f.name) = none := by
    rw [List.find?_eq_none]
    intro f hf
    simp [hdefaults f hf]
  refine bind_eq_ok.2 ⟨_, foldlM_storeEntry h start, ?_⟩
  rw [hmissing]

theorem Reader.natural_int (name : String) {bits n : ℕ} (h : n < 2 ^ bits) :
    Reader.natural name bits (.int n) = .ok n := by
  have hbound : (0 : ℤ) ≤ n ∧ (n : ℤ) ≤ (Number.unsignedMax bits : ℤ) := by
    have : n ≤ Number.unsignedMax bits := Nat.le_sub_one_of_lt h
    omega
  rw [Reader.natural, Reader.integer, if_pos hbound]
  rfl

end Json

/-! ## Spans of time -/

namespace Duration

/-- The whole milliseconds of a span. -/
def wholeMillis (d : Duration) : Duration := .ofMillis d.millis

/-- The whole milliseconds of a span as far as 64 bits hold them. -/
def kept (d : Duration) : Duration := .ofMillis d.millis64

theorem millis64_eq (d : Duration) : d.millis64 = d.millis % 2 ^ 64 := rfl

theorem millis64_lt (d : Duration) : d.millis64 < 2 ^ 64 := Nat.mod_lt _ (by decide)

theorem kept_eq_wholeMillis_iff {d : Duration} : d.kept = d.wholeMillis ↔ d.millis < 2 ^ 64 := by
  rw [kept, wholeMillis, ofMillis, ofMillis, millis64_eq, Duration.mk.injEq]
  omega

end Duration

/-! ## Settings -/

namespace Config
variable {c : Config}

/-- The spans of time in the settings. -/
def durations (c : Config) : List Duration :=
  c.retry.backoff :: c.safety.statementTimeout.toList

/-- The settings with their spans of time changed. -/
def mapDurations (f : Duration → Duration) (c : Config) : Config where
  schema := c.schema
  safety := { c.safety with statementTimeout := c.safety.statementTimeout.map f }
  retry := { c.retry with backoff := f c.retry.backoff }

/-- The numbers have as many bits as they are kept with. -/
structure Fits (c : Config) : Prop where
  maxInElements_lt : c.safety.maxInElements < 2 ^ 64
  maxTotalParams_lt : c.safety.maxTotalParams < 2 ^ 64
  attempts_lt : c.retry.attempts < 2 ^ 32

theorem safetyJson_eq (s : Safety) : safetyJson s = .obj [
    ("max_in_elements", .int s.maxInElements), ("max_total_params", .int s.maxTotalParams),
    ("statement_timeout_ms", (s.statementTimeout.map fun d => .int d.millis64).getD .null)] := by
  cases s with
  | mk _ _ timeout => cases timeout <;> rfl

theorem retryJson_eq (p : RetryPolicy) : retryJson p = .obj [
    ("attempts", .int p.attempts), ("backoff_ms", .int p.backoff.millis64)] := rfl

theorem toJson_eq (c : Config) : c.toJson = .obj [
    ("retry", retryJson c.retry), ("safety", safetyJson c.safety), ("schema", .str c.schema)] := rfl

theorem readRetry_retryJson {p : RetryPolicy} (h : p.attempts < 2 ^ 32) :
    readRetry (retryJson p) = .ok { p with backoff := p.backoff.kept } := by
  have hattempts : Json.Stores retryFields ("attempts", .int p.attempts)
      fun q => { q with attempts := p.attempts } :=
    Json.stores_of rfl (Reader.natural_int "u32" h) rfl
  have hbackoff : Json.Stores retryFields ("backoff_ms", .int p.backoff.millis64)
      fun q => { q with backoff := p.backoff.kept } :=
    Json.stores_of rfl (Reader.natural_int "u64" p.backoff.millis64_lt) rfl
  rw [retryJson_eq]
  exact Json.readRecord_obj _ _ (.cons hattempts (.cons hbackoff .nil)) (by decide)

theorem readSafety_safetyJson {s : Safety} (helements : s.maxInElements < 2 ^ 64)
    (hparams : s.maxTotalParams < 2 ^ 64) : readSafety (safetyJson s) =
      .ok { s with statementTimeout := s.statementTimeout.map Duration.kept } := by
  have hmaxElements : Json.Stores safetyFields ("max_in_elements", .int s.maxInElements)
      fun t => { t with maxInElements := s.maxInElements } :=
    Json.stores_of rfl (Reader.natural_int "usize" helements) rfl
  have hmaxParams : Json.Stores safetyFields ("max_total_params", .int s.maxTotalParams)
      fun t => { t with maxTotalParams := s.maxTotalParams } :=
    Json.stores_of rfl (Reader.natural_int "usize" hparams) rfl
  have htimeout : Json.Stores safetyFields ("statement_timeout_ms",
      (s.statementTimeout.map fun d => .int d.millis64).getD .null)
      fun t => { t with statementTimeout := s.statementTimeout.map Duration.kept } := by
    refine Json.stores_of rfl ?_ (a := s.statementTimeout.map Duration.millis64) ?_
    · cases s.statementTimeout with
      | none => rfl
      | some d => exact congrArg (Except.map some) (Reader.natural_int "u64" d.millis64_lt)
    · funext t
      rw [Option.map_map]
      rfl
  rw [safetyJson_eq]
  exact Json.readRecord_obj _ _ (.cons hmaxElements (.cons hmaxParams (.cons htimeout .nil)))
    (by decide)

/-- **Settings are read from their JSON**, with what 64 bits keep of each span of time. -/
theorem read_toJson (h : c.Fits) : read c.toJson = .ok (c.mapDurations Duration.kept) := by
  have hretry : Json.Stores configFields ("retry", retryJson c.retry)
      fun d => { d with retry := { c.retry with backoff := c.retry.backoff.kept } } :=
    Json.stores_of rfl (readRetry_retryJson h.attempts_lt) rfl
  have hsafety : Json.Stores configFields ("safety", safetyJson c.safety) fun d => { d with
      safety := { c.safety with
        statementTimeout := c.safety.statementTimeout.map Duration.kept } } :=
    Json.stores_of rfl (readSafety_safetyJson h.maxInElements_lt h.maxTotalParams_lt) rfl
  have hschema : Json.Stores configFields ("schema", .str c.schema)
      fun d => { d with schema := c.schema } :=
    Json.stores_of rfl (r := Reader.string) rfl rfl
  rw [toJson_eq]
  exact Json.readRecord_obj _ _ (.cons hretry (.cons hsafety (.cons hschema .nil))) (by decide)

/-- **The JSON of settings is read back from its text.** -/
theorem plain_toJson (h : c.Fits) : Json.Plain 127 c.toJson := by
  have hattempts : c.retry.attempts < 2 ^ 64 := Nat.lt_trans h.attempts_lt (by decide)
  have hretry : Json.Plain 126 (retryJson c.retry) := by
    refine .object (List.forall_mem_cons.2 ⟨.nat hattempts, List.forall_mem_singleton.2 ?_⟩)
    exact .nat c.retry.backoff.millis64_lt
  have hsafety : Json.Plain 126 (safetyJson c.safety) := by
    refine .object (List.forall_mem_cons.2 ⟨.nat h.maxInElements_lt, List.forall_mem_cons.2
      ⟨.nat h.maxTotalParams_lt, List.forall_mem_singleton.2 ?_⟩⟩)
    cases c.safety.statementTimeout with
    | none => exact .null
    | some d => exact .nat d.millis64_lt
  exact .object (List.forall_mem_cons.2 ⟨.str c.schema, List.forall_mem_cons.2
    ⟨hsafety, List.forall_mem_singleton.2 hretry⟩⟩)

theorem mapDurations_eq_iff {f g : Duration → Duration} :
    c.mapDurations f = c.mapDurations g ↔ ∀ d ∈ c.durations, f d = g d := by
  obtain ⟨schema, ⟨elements, params, timeout⟩, ⟨attempts, backoff⟩⟩ := c
  cases timeout <;> simp [mapDurations, durations, and_comm]

/-- **Settings written and read back.**  The text of their JSON is read as the JSON, and the JSON as
the settings with the whole milliseconds of each span of time, of which 64 bits are kept.  These are
all of its whole milliseconds, for every span, exactly if 64 bits hold those of every one. -/
theorem read_stored (h : c.Fits) :
    Json.parse? (Json.toText c.toJson) = some c.toJson ∧
    read c.toJson = .ok (c.mapDurations fun d => .ofMillis (d.millis % 2 ^ 64)) ∧
    (read c.toJson = .ok (c.mapDurations fun d => .ofMillis d.millis) ↔
      ∀ d ∈ c.durations, d.millis < 2 ^ 64) := by
  refine ⟨(plain_toJson h).parse?_toText, read_toJson h, ?_⟩
  have hkept : c.mapDurations Duration.kept = c.mapDurations Duration.wholeMillis ↔
      ∀ d ∈ c.durations, d.millis < 2 ^ 64 := by
    simp only [mapDurations_eq_iff, Duration.kept_eq_wholeMillis_iff]
  rw [read_toJson h, Except.ok.injEq]
  exact hkept

/-- What is beyond a whole millisecond is lost. -/
theorem read_stored_of_fractions :
    let c : Config := { safety := { statementTimeout := some ⟨1999999⟩ }, retry := ⟨3, ⟨2500000⟩⟩ }
    c.Fits ∧ read c.toJson =
      .ok { safety := { statementTimeout := some (.ofMillis 1) }, retry := ⟨3, .ofMillis 2⟩ } := by
  refine ⟨⟨by decide, by decide, by decide⟩, ?_⟩
  exact (read_stored ⟨by decide, by decide, by decide⟩).2.2.2 (by decide)

/-- A timeout of as many milliseconds as 64 bits count comes back as none at all. -/
theorem read_ne_of_long_timeout :
    let c : Config := { safety := { statementTimeout := some (.ofMillis (2 ^ 64)) } }
    c.Fits ∧ (∀ d ∈ c.durations, d.nanos ≤ Duration.max.nanos) ∧ c.validate = .ok () ∧
      read c.toJson = .ok { safety := { statementTimeout := some (.ofMillis 0) } } ∧
      read c.toJson ≠ .ok (c.mapDurations fun d => .ofMillis d.millis) := by
  intro c
  have hfits : c.Fits := ⟨by decide, by decide, by decide⟩
  have hread : read c.toJson = .ok { safety := { statementTimeout := some (.ofMillis 0) } } :=
    (read_toJson hfits).trans (congrArg Except.ok (by decide))
  refine ⟨hfits, by decide, by decide +kernel, hread, ?_⟩
  rw [hread, ne_eq, Except.ok.injEq]
  decide

end Config

end QueryClient
