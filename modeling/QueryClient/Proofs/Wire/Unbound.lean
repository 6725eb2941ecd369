/-
  Values that cannot be bound, and whether a call that failed of one is tried again.

  * `Quotable` says which errors there can be for a value: one about a part of the parameter's type,
    one about a text that the value holds, or one that quotes nothing (`quotable_of_encode`);
  * `mentionsConnectionCode_wording`: the text of an error names a connection code only in what it
    quotes;
  * `unbound_retriable_iff`: the failure counts as transient exactly if what is quoted names one.
-/
import QueryClient.Proofs.Error.Wrapped
import QueryClient.Proofs.Statement.Compiled
import QueryClient.Wire.Server
import Mathlib.Data.Nat.Notation

namespace QueryClient.Wire

open QueryClient.Number QueryClient.Text

variable {type part : SqlType} {v w : Value} {e : BindError} {text reason : String} {index : ℕ}

/-! ## What an error can be about -/

/-- A type is a part of another: the base of a domain, the element of an array. -/
inductive SqlType.IsPart (part : SqlType) : SqlType → Prop where
  | self : part.IsPart part
  | base {name : TypeName} {type : SqlType} : part.IsPart type → part.IsPart (.domain name type)
  | element {name : TypeName} {type : SqlType} : part.IsPart type → part.IsPart (.array name type)

/-- A value is a text, or has it among its items. -/
inductive HoldsText (text : String) : Value → Prop where
  | text : HoldsText text (.text text)
  | str : HoldsText text (.json (.str text))
  | item {v w : Value} {items : List Value} :
      itemsOf? v = some items → w ∈ items → HoldsText text w → HoldsText text v

/-- The errors there can be for a value and the type of its parameter. -/
inductive Quotable (type : SqlType) (v : Value) : BindError → Prop where
  | mismatch {part : SqlType} (w : Value) :
      part.IsPart type → Quotable type v (.mismatch (kindName w) part)
  | badBoolean {text : String} : HoldsText text v → Quotable type v (.badBoolean text)
  | badNumeric {text : String} : HoldsText text v → Quotable type v (.badNumeric (trim text))
  | badInteger (e : IntegerError) : Quotable type v (.badInteger e)
  | badFloat (e : FloatError) : Quotable type v (.badFloat e)
  | outOfRange (e : IntegerError) : Quotable type v (.outOfRange e)
  | badUuid : Quotable type v .badUuid
  | badMoment : Quotable type v .badMoment
  | badDecimal : Quotable type v .badDecimal

/-- What an item or a part can be refused for, the whole can be refused for. -/
theorem Quotable.imp {inner : SqlType}
    (htype : ∀ part : SqlType, part.IsPart inner → part.IsPart type)
    (htext : ∀ text, HoldsText text w → HoldsText text v) (h : Quotable inner w e) :
    Quotable type v e := by
  cases h with
  | mismatch u hpart => exact .mismatch u (htype _ hpart)
  | badBoolean h => exact .badBoolean (htext _ h)
  | badNumeric h => exact .badNumeric (htext _ h)
  | badInteger => exact .badInteger _
  | badFloat => exact .badFloat _
  | outOfRange => exact .outOfRange _
  | badUuid => exact .badUuid
  | badMoment => exact .badMoment
  | badDecimal => exact .badDecimal

/-! ## Scalars -/

section

variable {s : Scalar}

theorem quotable_of_encodeInt {i : ℤ} (h : encodeInt s i = some (.error e)) :
    Quotable type v e := by
  have hrange : ∀ {width : ℕ} {min max : ℤ}, encodeInteger width min max i = .error e →
      Quotable type v e := by
    intro width min max h
    unfold encodeInteger at h
    split at h <;> cases h
    exact .outOfRange _
  cases s with
  | int2 | int4 | int8 | oid => exact hrange (Option.some_inj.1 h)
  | _ => cases h

theorem quotable_of_encodeFloat {x : Double} (h : encodeFloat s x = some (.error e)) :
    Quotable type v e := by
  cases s with
  | numeric =>
    unfold encodeFloat at h
    dsimp only at h
    split at h <;> cases h
    exact .badDecimal
  | _ => cases h

theorem eq_of_orError {α : Type} {e' : BindError} {value : Option α} {encode : α → List UInt8}
    (h : orError e' value encode = .error e) : e = e' := by
  cases value <;> cases h
  rfl

theorem quotable_of_encodeText (hv : HoldsText text v) (h : encodeText s text = some (.error e)) :
    Quotable type v e := by
  cases s with
  | bool =>
    have h : (readBool text).map encodeBool = .error e := Option.some_inj.1 h
    unfold readBool at h
    dsimp only at h
    split_ifs at h <;> cases h
    exact .badBoolean hv
  | numeric =>
    have h : (readDecimal text).map encodeDecimal = .error e := Option.some_inj.1 h
    unfold readDecimal at h
    split at h <;> cases h
    exact .badNumeric hv
  | int2 | int4 | int8 | oid =>
    unfold encodeText at h
    dsimp only at h
    split at h
    · exact quotable_of_encodeInt h
    · cases h
      exact .badInteger _
  | float4 | float8 =>
    unfold encodeText at h
    dsimp only at h
    split at h
    · exact quotable_of_encodeFloat h
    · cases h
      exact .badFloat _
  | uuid =>
    obtain rfl := eq_of_orError (Option.some_inj.1 h)
    exact .badUuid
  | timestamp | timestamptz | date | time =>
    obtain rfl := eq_of_orError (Option.some_inj.1 h)
    exact .badMoment
  | _ => cases h

theorem quotable_of_encodeScalar (h : encodeScalar s v = some (.error e)) : Quotable type v e := by
  cases v with
  | int i =>
    rw [encodeScalar] at h
    exact quotable_of_encodeInt h
  | float x =>
    rw [encodeScalar] at h
    exact quotable_of_encodeFloat h
  | text text =>
    rw [encodeScalar] at h
    exact quotable_of_encodeText .text h
  | bool | decimal | uuid | bytes =>
    unfold encodeScalar at h
    dsimp only at h
    split_ifs at h
    cases h
  | timestamp =>
    unfold encodeScalar encodeTimestamp at h
    dsimp only at h
    split at h <;> cases h
  | null | json | array => cases h

end

/-! ## Values -/

/-- What has no bytes of its own is refused for the type. -/
theorem quotable_of_getD {found : Option Encoded}
    (hfound : found = some (.error e) → Quotable type v e)
    (h : found.getD (.error (.mismatch (kindName v) type)) = .error e) : Quotable type v e := by
  cases found with
  | none =>
    cases h
    exact .mismatch v .self
  | some result => exact hfound (congrArg some h)

theorem quotable_of_encodePlain (h : encodePlain type v = .error e) : Quotable type v e := by
  unfold encodePlain at h
  refine quotable_of_getD (fun hfound => ?_) h
  have hok : ∀ {α : Type} {o : Option α} {f : α → List UInt8},
      (o.map fun a => (.ok (f a) : Encoded)) ≠ some (.error e) := by
    intro α o f hmap
    obtain ⟨_, -, hmap⟩ := Option.map_eq_some_iff.1 hmap
    cases hmap
  split at hfound
  · exact absurd hfound hok
  · exact absurd hfound hok
  · split_ifs at hfound
    · exact absurd hfound hok
    · split at hfound
      · exact quotable_of_encodeScalar hfound
      · cases hfound

theorem holdsText_of_ofJson {j : Json} (h : HoldsText text (Value.ofJson j)) :
    HoldsText text (.json j) := by
  cases j with
  | str s =>
    cases h with
    | text => exact .str
    | item hitems => cases hitems
  | arr items => exact h
  | obj fields => exact h
  | int i =>
    unfold Value.ofJson at h
    dsimp only at h
    split_ifs at h <;> cases h with
      | item hitems => cases hitems
  | null | bool | float =>
    cases h with
    | item hitems => cases hitems

theorem holdsText_of_settle (h : HoldsText text (settle type v)) : HoldsText text v := by
  unfold settle at h
  split at h
  · exact h
  · exact h
  · exact holdsText_of_ofJson h
  · exact h

theorem quotable_of_encodeNullable (h : encodeNullable type v = .error e) : Quotable type v e := by
  unfold encodeNullable at h
  split at h
  · cases h
  · cases hplain : encodePlain type (settle type v) with
    | ok bytes =>
      rw [hplain] at h
      cases h
    | error e' =>
      rw [hplain] at h
      cases h
      exact (quotable_of_encodePlain hplain).imp (fun _ => id) fun _ => holdsText_of_settle

/-- **An error is about a part of the type or a text that the value holds, or quotes neither.** -/
theorem quotable_of_encode (h : encode type v = .error e) : Quotable type v e := by
  induction type generalizing v e with
  | domain name base ih =>
    rw [encode] at h
    exact (ih h).imp (fun _ => .base) fun _ => id
  | array name element ih =>
    rw [encode] at h
    split at h
    · next items hitems =>
      cases hbytes : items.mapM fun item => encode element item with
      | ok bytes =>
        rw [hbytes] at h
        cases h
      | error e' =>
        rw [hbytes] at h
        cases h
        obtain ⟨item, hmem, hitem⟩ := exists_of_mapM_error hbytes
        exact (ih hitem).imp (fun _ => .element) fun _ => .item hitems hmem
    · exact quotable_of_encodeNullable h
  | scalar | enumeration | other =>
    rw [encode] at h
    · exact quotable_of_encodeNullable h
    · nofun
    · nofun

/-! ## The failure of a call -/

namespace BindError

/-- What an error quotes: the name of a type, or a text. -/
def quoted : BindError → String
  | .mismatch _ type => type.display
  | .badBoolean text | .badNumeric text => text
  | .badInteger _ | .badFloat _ | .outOfRange _ | .badUuid | .badMoment | .badDecimal => ""

/-- The end of the text of an error: the reason that another library gives, if it is asked. -/
def tail (reason : String) : BindError → String
  | .badNumeric _ | .badUuid | .badMoment | .badDecimal => reason
  | .mismatch _ _ | .badBoolean _ | .badInteger _ | .badFloat _ | .outOfRange _ => ""

/-- The text of an error. -/
def wording (reason : String) (e : BindError) : String := e.message?.getD "" ++ e.tail reason

/-- The error of a call with a value that cannot be bound. -/
def failure (reason : String) (e : BindError) (index : ℕ) : Error :=
  .ofDriver (.parameter index) [.other (e.wording reason)]

/-- Where no other library gives a reason, this is the error of binding. -/
theorem failure_empty : e.failure "" index = e.toError index := by
  have htail : e.tail "" = "" := by cases e <;> rfl
  rw [failure, wording, htail, String.append_empty, toError]

end BindError

theorem mentionsConnectionCode_empty : mentionsConnectionCode "" = false :=
  mentionsConnectionCode_eq_false (by decide)

theorem mentionsConnectionCode_kindName (back : String) :
    mentionsConnectionCode (kindName v ++ back) = mentionsConnectionCode back := by
  refine mentionsConnectionCode_append ?_ back
  cases v <;> simp only [kindName] <;> decide

theorem notMem_integerMessage {e : IntegerError} :
    'E' ∉ e.message.toList ∧ 'T' ∉ e.message.toList := by
  cases e <;> decide

theorem notMem_floatMessage {e : FloatError} :
    'E' ∉ e.message.toList ∧ 'T' ∉ e.message.toList := by
  cases e <;> decide

/-- What an error quotes is the name of a part of the type, or a text that the value holds. -/
theorem mentionsConnectionCode_quoted_iff (h : Quotable type v e) :
    mentionsConnectionCode e.quoted ↔
      (∃ kind part, e = .mismatch kind part ∧ part.IsPart type ∧
        mentionsConnectionCode part.display) ∨
      ∃ text, HoldsText text v ∧ (e = .badBoolean text ∨ e = .badNumeric (trim text)) ∧
        mentionsConnectionCode text := by
  constructor
  · intro hquoted
    cases h with
    | mismatch w hpart => exact .inl ⟨_, _, rfl, hpart, hquoted⟩
    | badBoolean htext => exact .inr ⟨_, htext, .inl rfl, hquoted⟩
    | badNumeric htext =>
      exact .inr ⟨_, htext, .inr rfl, (mentionsConnectionCode_trim _).symm.trans hquoted⟩
    | _ => exact absurd hquoted (Bool.eq_false_iff.1 mentionsConnectionCode_empty)
  · rintro (⟨kind, part, rfl, -, hdisplay⟩ | ⟨text, -, rfl | rfl, htext⟩)
    · exact hdisplay
    · exact htext
    · exact (mentionsConnectionCode_trim text).trans htext

/-- **The text of an error names a connection code only in what it quotes.** -/
theorem mentionsConnectionCode_wording (hreason : mentionsConnectionCode reason = false)
    (h : Quotable type v e) :
    mentionsConnectionCode (e.wording reason) = mentionsConnectionCode e.quoted := by
  rw [BindError.wording]
  cases h with
  | mismatch w hpart =>
    rw [BindError.message?, Option.getD_some, BindError.tail, String.append_empty,
      String.append_assoc, String.append_assoc, mentionsConnectionCode_append (by decide),
      mentionsConnectionCode_kindName, mentionsConnectionCode_append (by decide), BindError.quoted]
  | badBoolean =>
    rw [BindError.message?, Option.getD_some, BindError.tail, mentionsConnectionCode_quoted,
      mentionsConnectionCode_append (by decide), BindError.quoted, mentionsConnectionCode_empty,
      Bool.or_false]
  | badNumeric =>
    rw [BindError.message?, Option.getD_some, BindError.tail, mentionsConnectionCode_quoted,
      mentionsConnectionCode_append (by decide), BindError.quoted, hreason, Bool.or_false]
  | badInteger | outOfRange =>
    rw [BindError.message?, Option.getD_some, BindError.tail, String.append_empty,
      mentionsConnectionCode_eq_false notMem_integerMessage, BindError.quoted,
      mentionsConnectionCode_empty]
  | badFloat =>
    rw [BindError.message?, Option.getD_some, BindError.tail, String.append_empty,
      mentionsConnectionCode_eq_false notMem_floatMessage, BindError.quoted,
      mentionsConnectionCode_empty]
  | badUuid | badMoment | badDecimal =>
    rw [BindError.message?, Option.getD_none, BindError.tail, String.empty_append, hreason,
      BindError.quoted, mentionsConnectionCode_empty]

theorem notMem_toString {n : ℕ} : 'E' ∉ (toString n).toList ∧ 'T' ∉ (toString n).toList := by
  have hdigits : (toString n).toList = Nat.toDigits 10 n := String.toList_ofList
  have hplain : ∀ c : Char, ¬ c.isDigit → c ∉ (toString n).toList := by
    intro c hc hmem
    rw [hdigits] at hmem
    exact hc (Nat.isDigit_of_mem_toDigits (by decide) (by decide) hmem)
  exact ⟨hplain _ (by decide), hplain _ (by decide)⟩

/-- An error of the driver that is neither a report nor a lost connection, and names no code, is
judged by what is behind it. -/
theorem isRetriable_ofDriver {e : DriverError} {rest : List Link} (hreport : e.report? = none)
    (hclosed : e.isClosed = false) (hplain : mentionsConnectionCode e.message = false) :
    (Error.ofDriver e rest).isRetriable = isTransient rest := by
  have hquery : mentionsConnectionCode ("Query error: " ++ e.message) = false := by
    rw [mentionsConnectionCode_append (by decide), hplain]
  have hfailure : (Link.failure (.query e.message none)).verdict? = none :=
    textVerdict?_eq_none_iff.2 hquery
  have hdriver : (Link.driver e).verdict? = none := by
    rw [Link.verdict?, hreport, hclosed]
    exact textVerdict?_eq_none_iff.2 hplain
  have hchain : (Error.ofDriver e rest).isRetriable =
      isTransient (.failure (.query e.message none) :: .driver e :: rest) := by
    cases e with
    | report r => cases hreport
    | closed => cases hclosed
    | _ => rfl
  rw [hchain, isTransient_cons, hfailure, Option.getD_none, isTransient_cons, hdriver,
    Option.getD_none]

/-- What is judged is the text of the error alone. -/
theorem isRetriable_failure :
    (e.failure reason index).isRetriable = mentionsConnectionCode (e.wording reason) := by
  have hplain : mentionsConnectionCode (DriverError.parameter index).message = false :=
    (mentionsConnectionCode_append (by decide) _).trans
      (mentionsConnectionCode_eq_false notMem_toString)
  calc (e.failure reason index).isRetriable
      = isTransient [.other (e.wording reason)] := isRetriable_ofDriver rfl rfl hplain
    _ = (mentionsConnectionCode (e.wording reason) || false) := by
        rw [isTransient_cons, Link.verdict?, textVerdict?_getD]
        rfl
    _ = mentionsConnectionCode (e.wording reason) := Bool.or_false _

theorem isRetriable_failure_of_encode (hreason : mentionsConnectionCode reason = false)
    (h : encode type v = .error e) :
    (e.failure reason index).isRetriable = mentionsConnectionCode e.quoted :=
  isRetriable_failure.trans (mentionsConnectionCode_wording hreason (quotable_of_encode h))

/-- **A failure to bind a value counts as transient exactly if what it quotes names a connection
code**: the name of a part of the type that the value does not fit, or a text in the value that
is neither a truth value nor a number. -/
theorem unbound_retriable_iff (hreason : mentionsConnectionCode reason = false)
    (h : encode type v = .error e) :
    (e.failure reason index).isRetriable ↔
      (∃ kind part, e = .mismatch kind part ∧ part.IsPart type ∧
        mentionsConnectionCode part.display) ∨
      ∃ text, HoldsText text v ∧ (e = .badBoolean text ∨ e = .badNumeric (trim text)) ∧
        mentionsConnectionCode text := by
  rw [isRetriable_failure_of_encode hreason h]
  exact mentionsConnectionCode_quoted_iff (quotable_of_encode h)

/-- A number with a comma is refused for good. -/
theorem unbound_retriable_iff_of_comma :
    encode (.scalar .numeric) (.text " 12,5") = .error (.badNumeric "12,5") ∧
    ¬ ((BindError.badNumeric "12,5").failure ": Invalid decimal: unknown character"
      0).isRetriable := by
  have hrefused : encode (.scalar .numeric) (.text " 12,5") = .error (.badNumeric "12,5") := rfl
  refine ⟨hrefused, fun hretriable => ?_⟩
  have hreason : mentionsConnectionCode ": Invalid decimal: unknown character" = false :=
    mentionsConnectionCode_eq_false (by decide)
  rcases (unbound_retriable_iff hreason hrefused).1 hretriable with
    ⟨_, _, hmismatch, -⟩ | ⟨text, htext, -, hmentions⟩
  · cases hmismatch
  · cases htext with
    | text => exact absurd hmentions (by decide)
    | item hitems => cases hitems

/-- A text that is no number, a text that is no truth value, and bytes for a type, each with the
name of a connection code: the failure counts as transient, also that of all values together. -/
theorem unbound_values_retriable :
    (encode (.scalar .numeric) (.text "ECONNRESET") = .error (.badNumeric "ECONNRESET") ∧
      ((BindError.badNumeric "ECONNRESET").failure ": Invalid decimal: unknown character"
        0).isRetriable = true) ∧
    (encode (.scalar .bool) (.text "EPIPE") = .error (.badBoolean "EPIPE") ∧
      ((BindError.badBoolean "EPIPE").failure "" 0).isRetriable = true) ∧
    (∃ e, encode (.enumeration ⟨"public", "ETIMEDOUT", 90001⟩) (.bytes []) = .error e ∧
      (e.failure "" 0).isRetriable = true) ∧
    ∃ failure, encodeAll [.scalar .bool] [.text "EPIPE"] = .error failure ∧
      failure.isRetriable = true := by
  have hnumeric : encode (.scalar .numeric) (.text "ECONNRESET") =
      .error (.badNumeric "ECONNRESET") := rfl
  have hboolean : encode (.scalar .bool) (.text "EPIPE") = .error (.badBoolean "EPIPE") := rfl
  have hbytes : encode (.enumeration ⟨"public", "ETIMEDOUT", 90001⟩) (.bytes []) =
      .error (.mismatch "bytes" (.enumeration ⟨"public", "ETIMEDOUT", 90001⟩)) := rfl
  have hreason : mentionsConnectionCode ": Invalid decimal: unknown character" = false :=
    mentionsConnectionCode_eq_false (by decide)
  have htruth : ((BindError.badBoolean "EPIPE").failure "" 0).isRetriable = true :=
    (isRetriable_failure_of_encode mentionsConnectionCode_empty hboolean).trans (by decide)
  refine ⟨⟨hnumeric, (isRetriable_failure_of_encode hreason hnumeric).trans (by decide)⟩,
    ⟨hboolean, htruth⟩,
    ⟨_, hbytes,
      (isRetriable_failure_of_encode mentionsConnectionCode_empty hbytes).trans (by decide)⟩, ?_⟩
  rw [BindError.failure_empty] at htruth
  exact ⟨_, rfl, htruth⟩

end QueryClient.Wire
