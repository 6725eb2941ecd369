/-
  Values of columns that are shown in a form of their own, bound in that form.

  Bytes are shown as hexadecimal digits behind a mark, a single byte as a character, times of day
  and moments in universal time as their texts.

  * `Recognized` says which of them the other side knows again, `Misread` what becomes of the rest;
  * `readBack_time` and `readBack_timestamptz`: the times and moments that are read back;
  * `length_lt_length_ofText_hexText`: the text that shows some bytes is longer than the bytes;
  * `rendered_read_back_iff`: a value is read back exactly if it is recognized.
-/
import QueryClient.Proofs.Wire.ReadBack

namespace QueryClient.Wire

open QueryClient.Calendar QueryClient.Number QueryClient.Text

/-- The scalars whose values are shown in a form of their own. -/
def Scalar.isRendered (s : Scalar) : Bool := s ∈ [.bytea, .char, .time, .timestamptz]

/-- A value is bound to a parameter, and what is bound is read as the same value. -/
def ReadBack (type : SqlType) (j : Json) : Prop :=
  ∃ bound, encode type (Value.ofJson j) = .ok (some bound) ∧ decodeCell type (some bound) = .ok j

/-- The moment that some bytes spell. -/
def spelledMoment? (bytes : List UInt8) : Option Moment :=
  (Bytes.int? 8 bytes).bind Moment.ofMicrosSince2000?

/-- The bytes whose rendered value is known again: every time of day, and the moments in universal
time whose year has four digits. -/
inductive Recognized (bytes : List UInt8) : Scalar → Prop
  | time : Recognized bytes .time
  | timestamptz {m : Moment} : spelledMoment? bytes = some m → 0 ≤ m.date.civil.year →
      m.date.civil.year ≤ 9999 → Recognized bytes .timestamptz

/-- What becomes of a value that is not known again.  A character and a moment are refused; of
bytes, the text that shows them is bound in their place. -/
inductive Misread (bytes : List UInt8) (j : Json) : Scalar → Prop
  | char : encode (.scalar .char) (Value.ofJson j) = .error (.mismatch "text" (.scalar .char)) →
      Misread bytes j .char
  | timestamptz : encode (.scalar .timestamptz) (Value.ofJson j) = .error .badMoment →
      Misread bytes j .timestamptz
  | bytea {text : String} : j = .str text →
      encode (.scalar .bytea) (Value.ofJson j) = .ok (some (Bytes.ofText text)) →
      Bytes.ofText text ≠ bytes → Misread bytes j .bytea

variable {s : Scalar} {bytes : List UInt8} {j : Json}

theorem decodeCell_scalar_eq_ok_iff :
    decodeCell (.scalar s) (some bytes) = .ok j ↔ decodeScalar s bytes = some j := by
  rw [decodeCell_eq_ok_iff]
  constructor
  · rintro ⟨_, ⟨⟩, h⟩
    exact h
  · exact fun h => ⟨_, rfl, h⟩

theorem not_readBack_of_error {e : BindError} (h : encode (.scalar s) (Value.ofJson j) = .error e) :
    ¬ ReadBack (.scalar s) j := by
  rintro ⟨bound, hencode, -⟩
  cases h.symm.trans hencode

/-! ## Times of day -/

theorem encode_time (text : String) : encode (.scalar .time) (.text text) =
    (orError .badMoment (time? text) encodeTime).map some := by
  rw [encode_scalar_text (s := .time) text rfl nofun nofun, encodeText, Option.getD_some]

theorem decodeScalar_time_eq_some_iff : decodeScalar .time bytes = some j ↔
    ∃ micros, Bytes.int? 8 bytes = some micros ∧
      j = .str (TimeOfDay.ofNanos (1000 * micros)).toText := by
  constructor
  · intro h
    obtain ⟨micros, hmicros, h⟩ := Option.bind_eq_some_iff.1 h
    cases h
    exact ⟨micros, hmicros, rfl⟩
  · rintro ⟨micros, hmicros, rfl⟩
    simp only [decodeScalar, hmicros, bind, Option.bind, pure]

/-- A time of day is as many microseconds after midnight as its bytes say, whole days apart. -/
theorem ofNanos_micros (micros : ℤ) : ∃ micros', 0 ≤ micros' ∧ micros' < 86400000000 ∧
    (TimeOfDay.ofNanos (1000 * micros)).nanos / 1000 = micros' ∧
    TimeOfDay.ofNanos (1000 * micros') = TimeOfDay.ofNanos (1000 * micros) := by
  have hsize : ((86400 * billion : ℕ) : ℤ) = 86400000000000 := rfl
  have hnanos := (TimeOfDay.ofNanos_spec (1000 * micros)).2
  rw [hsize] at hnanos
  refine ⟨micros % 86400000000, by omega, by omega, by omega, ?_⟩
  have hday : 1000 * (micros % 86400000000) % 86400000000000 = 1000 * micros % 86400000000000 := by
    omega
  rw [TimeOfDay.ofNanos, TimeOfDay.ofNanos, hsize, hday]

theorem readBack_time (h : decodeScalar .time bytes = some j) : ReadBack (.scalar .time) j := by
  obtain ⟨micros, -, rfl⟩ := decodeScalar_time_eq_some_iff.1 h
  obtain ⟨micros', hlow, hhigh, hnanos, hsame⟩ := ofNanos_micros micros
  refine ⟨Bytes.ofInt 8 micros', ?_, decodeCell_scalar_eq_ok_iff.2 ?_⟩
  · rw [Value.ofJson, encode_time, time?_toText (TimeOfDay.ofNanos_spec _).1, ← hnanos]
    rfl
  · exact decodeScalar_time_eq_some_iff.2
      ⟨micros', Bytes.int?_ofInt (by omega) (by omega), by rw [hsame]⟩

/-! ## Moments in universal time -/

theorem encode_timestamptz (text : String) : encode (.scalar .timestamptz) (.text text) =
    (orError .badMoment (instant? text) encodeMoment).map some := by
  rw [encode_scalar_text (s := .timestamptz) text rfl nofun nofun, encodeText, Option.getD_some]

theorem decodeScalar_timestamptz_eq_some_iff : decodeScalar .timestamptz bytes = some j ↔
    ∃ m, spelledMoment? bytes = some m ∧ j = .str m.toUtcText := by
  unfold spelledMoment?
  constructor
  · intro h
    obtain ⟨n, hn, h⟩ := Option.bind_eq_some_iff.1 h
    obtain ⟨m, hm, h⟩ := Option.bind_eq_some_iff.1 h
    cases h
    exact ⟨m, Option.bind_eq_some_iff.2 ⟨n, hn, hm⟩, rfl⟩
  · rintro ⟨m, hm, rfl⟩
    obtain ⟨n, hn, hm⟩ := Option.bind_eq_some_iff.1 hm
    simp only [decodeScalar, decodeMoment, hn, hm, bind, Option.bind, pure]

/-- A moment is read back from the bytes that it is bound as. -/
theorem spelledMoment?_encodeMoment {m : Moment} (h : spelledMoment? bytes = some m) :
    m.Plain ∧ spelledMoment? (encodeMoment m) = some m := by
  obtain ⟨n, hn, hm⟩ := Option.bind_eq_some_iff.1 h
  obtain ⟨hplain, hmicros⟩ := Moment.ofMicrosSince2000?_eq_some hm
  obtain ⟨hlow, hhigh⟩ := Bytes.bounds_of_int? hn
  rw [encodeMoment, hmicros, spelledMoment?, Bytes.int?_ofInt hlow hhigh, Option.bind_some]
  exact ⟨hplain, hm⟩

theorem readBack_timestamptz {m : Moment} (h : spelledMoment? bytes = some m)
    (hyear : 0 ≤ m.date.civil.year ∧ m.date.civil.year ≤ 9999) :
    ReadBack (.scalar .timestamptz) (.str m.toUtcText) := by
  obtain ⟨hplain, hback⟩ := spelledMoment?_encodeMoment h
  refine ⟨encodeMoment m, ?_, decodeCell_scalar_eq_ok_iff.2 ?_⟩
  · rw [Value.ofJson, encode_timestamptz, instant?_toUtcText hplain, if_pos hyear]
    rfl
  · exact decodeScalar_timestamptz_eq_some_iff.2 ⟨m, hback, rfl⟩

theorem encode_timestamptz_of_far_year {m : Moment} (h : spelledMoment? bytes = some m)
    (hyear : ¬ (0 ≤ m.date.civil.year ∧ m.date.civil.year ≤ 9999)) :
    encode (.scalar .timestamptz) (.text m.toUtcText) = .error .badMoment := by
  rw [encode_timestamptz, instant?_toUtcText (spelledMoment?_encodeMoment h).1, if_neg hyear]
  rfl

theorem Recognized.year {m : Moment} (h : Recognized bytes .timestamptz)
    (hm : spelledMoment? bytes = some m) :
    0 ≤ m.date.civil.year ∧ m.date.civil.year ≤ 9999 := by
  cases h with
  | timestamptz hm' hlow hhigh =>
    cases hm.symm.trans hm'
    exact ⟨hlow, hhigh⟩

/-! ## Characters -/

theorem exists_text_of_char (h : decodeScalar .char bytes = some j) : ∃ text, j = .str text := by
  unfold decodeScalar at h
  dsimp only at h
  split at h
  · cases h
    exact ⟨_, rfl⟩
  · cases h

theorem encode_char (text : String) :
    encode (.scalar .char) (.text text) = .error (.mismatch "text" (.scalar .char)) := rfl

/-! ## Bytes -/

theorem encode_bytea (text : String) :
    encode (.scalar .bytea) (.text text) = .ok (some (Bytes.ofText text)) := rfl

theorem length_hexText (bytes : List UInt8) :
    (Value.hexText bytes).toList.length = 2 * bytes.length + 2 := by
  have hmark : "\\x".toList.length = 2 := rfl
  rw [Value.hexText, String.toList_append, List.length_append, hmark, hex, String.toList_ofList,
    length_hexChars, Nat.add_comm]

/-- The text that shows some bytes is longer than the bytes. -/
theorem length_lt_length_ofText_hexText (bytes : List UInt8) :
    bytes.length < (Bytes.ofText (Value.hexText bytes)).length := by
  have h := Bytes.length_le_length_ofText (Value.hexText bytes).toList
  rw [length_hexText, String.ofList_toList] at h
  omega

/-- Texts that show different numbers of bytes differ. -/
theorem length_eq_of_hexText_eq {bytes bytes' : List UInt8}
    (h : Value.hexText bytes = Value.hexText bytes') : bytes.length = bytes'.length := by
  have hlength : (Value.hexText bytes).toList.length = (Value.hexText bytes').toList.length := by
    rw [h]
  rw [length_hexText, length_hexText] at hlength
  omega

theorem not_readBack_bytea (bytes : List UInt8) :
    ¬ ReadBack (.scalar .bytea) (.str (Value.hexText bytes)) := by
  rintro ⟨bound, hencode, hdecode⟩
  rw [Value.ofJson, encode_bytea] at hencode
  cases hencode
  have hshown : decodeScalar .bytea (Bytes.ofText (Value.hexText bytes)) =
      some (.str (Value.hexText bytes)) := decodeCell_scalar_eq_ok_iff.1 hdecode
  have hsame : Value.hexText (Bytes.ofText (Value.hexText bytes)) = Value.hexText bytes :=
    Json.str.inj (Option.some.inj hshown)
  exact Nat.ne_of_gt (length_lt_length_ofText_hexText bytes) (length_eq_of_hexText_eq hsame)

/-! ## All of them -/

/-- **A value that is shown in a form of its own is read back exactly if it is recognized**: a time
of day, or a moment in universal time whose year has four digits.  Every other one is refused, or
replaced by the bytes of its text. -/
theorem rendered_read_back_iff (hs : s.isRendered)
    (h : decodeCell (.scalar s) (some bytes) = .ok j) :
    (ReadBack (.scalar s) j ↔ Recognized bytes s) ∧ (¬ Recognized bytes s → Misread bytes j s) := by
  rw [decodeCell_scalar_eq_ok_iff] at h
  cases s with
  | time => exact ⟨iff_of_true (readBack_time h) .time, fun hnot => absurd .time hnot⟩
  | timestamptz =>
    obtain ⟨m, hm, rfl⟩ := decodeScalar_timestamptz_eq_some_iff.1 h
    by_cases hyear : 0 ≤ m.date.civil.year ∧ m.date.civil.year ≤ 9999
    · have hrecognized : Recognized bytes .timestamptz := .timestamptz hm hyear.1 hyear.2
      exact ⟨iff_of_true (readBack_timestamptz hm hyear) hrecognized,
        fun hnot => absurd hrecognized hnot⟩
    · have hrefused := encode_timestamptz_of_far_year hm hyear
      have hnot : ¬ Recognized bytes .timestamptz := fun h => hyear (h.year hm)
      exact ⟨iff_of_false (not_readBack_of_error hrefused) hnot, fun _ => .timestamptz hrefused⟩
  | char =>
    obtain ⟨text, rfl⟩ := exists_text_of_char h
    have hrefused := encode_char text
    exact ⟨iff_of_false (not_readBack_of_error hrefused) nofun, fun _ => .char hrefused⟩
  | bytea =>
    cases h
    have hlonger := length_lt_length_ofText_hexText bytes
    refine ⟨iff_of_false (not_readBack_bytea bytes) nofun, fun _ => ?_⟩
    exact .bytea rfl (encode_bytea _) fun hsame => Nat.ne_of_gt hlonger (congrArg List.length hsame)
  | _ => cases hs

/-- The beginning of the year 2000. -/
theorem rendered_read_back_of_millennium :
    decodeCell (.scalar .timestamptz) (some [0, 0, 0, 0, 0, 0, 0, 0]) =
      .ok (.str "2000-01-01T00:00:00+00:00") ∧
    ReadBack (.scalar .timestamptz) (.str "2000-01-01T00:00:00+00:00") := by
  have hdecode : decodeCell (.scalar .timestamptz) (some [0, 0, 0, 0, 0, 0, 0, 0]) =
      .ok (.str "2000-01-01T00:00:00+00:00") := rfl
  have hrecognized : Recognized [0, 0, 0, 0, 0, 0, 0, 0] .timestamptz :=
    .timestamptz rfl (by decide) (by decide)
  exact ⟨hdecode, (rendered_read_back_iff rfl hdecode).1.2 hrecognized⟩

/-- Two bytes are replaced by the six of their text, a character and a moment of the year 10000 are
refused. -/
theorem rendered_values_misread :
    (decodeCell (.scalar .bytea) (some [222, 173]) = .ok (.str "\\xdead") ∧
      encode (.scalar .bytea) (Value.ofJson (.str "\\xdead")) =
        .ok (some [92, 120, 100, 101, 97, 100]) ∧
      decodeCell (.scalar .bytea) (some [92, 120, 100, 101, 97, 100]) =
        .ok (.str "\\x5c7864656164")) ∧
    (decodeCell (.scalar .char) (some [65]) = .ok (.str "A") ∧
      encode (.scalar .char) (Value.ofJson (.str "A")) =
        .error (.mismatch "text" (.scalar .char))) ∧
    decodeCell (.scalar .timestamptz) (some [3, 128, 231, 11, 145, 59, 128, 0]) =
      .ok (.str "+10000-01-01T00:00:00+00:00") ∧
    encode (.scalar .timestamptz) (Value.ofJson (.str "+10000-01-01T00:00:00+00:00")) =
      .error .badMoment := by
  have htext : Bytes.ofText "\\xdead" = [92, 120, 100, 101, 97, 100] := by
    rw [Bytes.ofText_eq]
    rfl
  refine ⟨⟨rfl, ?_, rfl⟩, ⟨rfl, rfl⟩, rfl, rfl⟩
  rw [Value.ofJson, encode_bytea, htext]

end QueryClient.Wire
