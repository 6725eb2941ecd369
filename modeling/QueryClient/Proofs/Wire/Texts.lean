/-
  Texts in columns and in arrays.

  The binary form of most texts is the text itself.  Paths of labels and the patterns for them have
  a number before it, the version of their form.

  * `TextForm` says which bytes a server sends for a text, by the type of the text;
  * `SqlType.isVersioned` holds of the types whose texts have a version before them;
  * `decodeText_of_textForm`: such a version is taken for the first character of the text;
  * `texts_read`: what becomes of a text in a column and of texts in an array.
-/
import QueryClient.Proofs.Wire.Elements

namespace QueryClient.Wire

variable {type : SqlType} {text : String} {bytes : List UInt8}

/-- The bytes that a server sends for a text.  A domain sends what its base sends. -/
inductive TextForm : SqlType → String → List UInt8 → Prop
  | scalar {s : Scalar} {text : String} : s.isText → TextForm (.scalar s) text (Bytes.ofText text)
  | enumeration {name : TypeName} {text : String} :
      TextForm (.enumeration name) text (Bytes.ofText text)
  | caseless {name : TypeName} {text : String} : name.name = "citext" →
      TextForm (.other name) text (Bytes.ofText text)
  | labels {name : TypeName} {text : String} : name.name ∈ ["ltree", "lquery", "ltxtquery"] →
      TextForm (.other name) text (1 :: Bytes.ofText text)
  | domain {name : TypeName} {base : SqlType} {text : String} {bytes : List UInt8} :
      TextForm base text bytes → TextForm (.domain name base) text bytes

/-- The types whose texts have a version before them. -/
def SqlType.isVersioned : SqlType → Bool
  | .other name => name.name ∈ ["ltree", "lquery", "ltxtquery"]
  | .domain _ base => base.isVersioned
  | _ => false

/-- The text that stands for a text of a type: a version before it becomes its first character. -/
def SqlType.shownText (type : SqlType) (text : String) : String :=
  if type.isVersioned then "\x01" ++ text else text

theorem shownText_eq_iff : type.shownText text = text ↔ ¬ type.isVersioned := by
  unfold SqlType.shownText
  split_ifs with h
  · refine iff_of_false (fun hsame => ?_) (not_not_intro h)
    have hlength := congrArg String.length hsame
    rw [String.length_append] at hlength
    exact Nat.one_ne_zero (Nat.add_eq_right.1 hlength)
  · exact iff_of_true rfl h

/-! ## Bytes -/

theorem ofText_append (s t : String) :
    Bytes.ofText (s ++ t) = Bytes.ofText s ++ Bytes.ofText t := by
  rw [Bytes.ofText_eq, Bytes.ofText_eq, Bytes.ofText_eq, String.toByteArray_append,
    ByteArray.data_append, Array.toList_append]

/-- A byte of the number 1 before a text is read as a character of the text. -/
theorem ofText_version (text : String) :
    Bytes.ofText ("\x01" ++ text) = 1 :: Bytes.ofText text := by
  have hversion : Bytes.ofText "\x01" = [1] := by
    rw [Bytes.ofText_eq]
    rfl
  rw [ofText_append, hversion, List.singleton_append]

theorem ofText_shownText (h : TextForm type text bytes) :
    Bytes.ofText (type.shownText text) = bytes := by
  induction h with
  | scalar | enumeration => rfl
  | @caseless name text hname =>
    have hplain : (SqlType.other name).isVersioned = false := by
      rw [SqlType.isVersioned, hname]
      rfl
    rw [SqlType.shownText, hplain]
    rfl
  | @labels name text hname =>
    have hversioned : (SqlType.other name).isVersioned = true := decide_eq_true hname
    rw [SqlType.shownText, if_pos hversioned, ofText_version]
  | domain _ ih => exact ih

/-- A text is read with the version before it as its first character. -/
theorem decodeText_of_textForm (h : TextForm type text bytes) :
    decodeText bytes = some (.str (type.shownText text)) := by
  rw [decodeText, Bytes.text?_eq_some_iff.2 (ofText_shownText h), Option.map_some]

/-! ## Columns -/

theorem elementReader?_of_readsAsText (h : type.readsAsText) :
    elementReader? type = some decodeText := by
  cases type with
  | scalar s => cases s <;> first | rfl | cases h
  | enumeration => rfl
  | _ => exact if_pos h

/-- Texts in columns of their own are read as elements of arrays are. -/
theorem columnReader_of_textForm (hreads : type.readsAsText) (h : TextForm type text bytes) :
    columnReader type = .ok decodeText := by
  have hreader := reader?_of_elementReader? (elementReader?_of_readsAsText hreads)
  cases h with
  | _ =>
    unfold columnReader
    dsimp only
    rw [hreader]

/-- **A text is read as itself unless its type is versioned.**  Then a character of the number 1
comes before it, in a column as in an array. -/
theorem texts_read (hreads : type.readsAsText) :
    (∀ text bytes, TextForm type text bytes →
      decodeCell type (some bytes) = .ok (.str (type.shownText text))) ∧
    (∀ texts cells bytes name, List.Forall₂ (Option.Rel (TextForm type)) texts cells →
      IsArray cells bytes → decodeCell (.array name type) (some bytes) =
        .ok (.arr (texts.map fun text? => text?.elim .null fun text =>
          .str (type.shownText text)))) ∧
    ∀ text, type.shownText text = text ↔ ¬ type.isVersioned := by
  refine ⟨fun text bytes h => ?_, fun texts cells bytes name h hbytes => ?_,
    fun _ => shownText_eq_iff⟩
  · exact decodeCell_eq_ok_iff.2
      ⟨_, columnReader_of_textForm hreads h, decodeText_of_textForm h⟩
  · have hitems : cells.mapM (decodeElement decodeText) =
        some (texts.map fun text? => text?.elim .null fun text => .str (type.shownText text)) := by
      refine mapM_of_forall₂ (List.forall₂_map_right_iff.2 (h.flip.imp fun cell text? hcell => ?_))
      cases hcell with
      | none => rfl
      | some hform => exact decodeText_of_textForm hform
    rw [decodeCell, columnReader, elementReader?_of_readsAsText hreads]
    simp only [bind, Except.bind, hbytes.arrayElements?_eq, Option.bind, hitems, pure]

/-- A mood in a column of its own, and in an array with a null. -/
theorem texts_read_of_mood :
    TextForm (.enumeration ⟨"public", "mood", 90001⟩) "ok" [111, 107] ∧
    decodeCell (.enumeration ⟨"public", "mood", 90001⟩) (some [111, 107]) = .ok (.str "ok") ∧
    decodeCell (.array ⟨"public", "_mood", 90002⟩ (.enumeration ⟨"public", "mood", 90001⟩))
      (some [0, 0, 0, 1, 0, 0, 0, 1, 0, 1, 95, 145, 0, 0, 0, 2, 0, 0, 0, 1, 0, 0, 0, 2, 111, 107,
        255, 255, 255, 255]) = .ok (.arr [.str "ok", .null]) := by
  have htext : Bytes.ofText "ok" = [111, 107] := by
    rw [Bytes.ofText_eq]
    rfl
  have hform : TextForm (.enumeration ⟨"public", "mood", 90001⟩) "ok" [111, 107] :=
    htext ▸ .enumeration
  have hshort : Short [some [111, 107], none] := ⟨by decide, by simp⟩
  have hbytes := @IsArray.line _ [0, 0, 0, 1, 0, 1, 95, 145] [0, 0, 0, 1] hshort rfl rfl
  obtain ⟨hcolumn, harray, -⟩ := @texts_read (.enumeration ⟨"public", "mood", 90001⟩) rfl
  exact ⟨hform, hcolumn _ _ hform,
    harray [some "ok", none] _ _ _ (.cons (.some hform) (.cons .none .nil)) hbytes⟩

/-- A path of two labels is read with the version of its form before it. -/
theorem version_read_as_character :
    TextForm (.other ⟨"public", "ltree", 90004⟩) "a.b" [1, 97, 46, 98] ∧
    decodeCell (.other ⟨"public", "ltree", 90004⟩) (some [1, 97, 46, 98]) =
      .ok (.str "\x01a.b") ∧
    decodeCell (.array ⟨"public", "_ltree", 90005⟩ (.other ⟨"public", "ltree", 90004⟩))
      (some [0, 0, 0, 1, 0, 0, 0, 0, 0, 1, 95, 148, 0, 0, 0, 1, 0, 0, 0, 1, 0, 0, 0, 4, 1, 97, 46,
        98]) = .ok (.arr [.str "\x01a.b"]) := by
  have htext : Bytes.ofText "a.b" = [97, 46, 98] := by
    rw [Bytes.ofText_eq]
    rfl
  exact ⟨htext ▸ .labels (by decide), rfl, rfl⟩

end QueryClient.Wire
