/-
  Texts that name a connection code.

  * `hasInfix_iff` and `mentionsConnectionCode_iff`: a text names a code exactly if one of the
    `connectionMarks` stands in it in a row;
  * `mentionsConnectionCode_append`: words in front in which no mark can begin change nothing;
  * `mentionsConnectionCode_quoted`: no mark reaches across a quotation mark;
  * `mentionsConnectionCode_trim`: nor into the blanks around a text.
-/
import QueryClient.Error.Retry
import Mathlib.Data.List.Infix
import Mathlib.Data.List.TakeWhile

namespace QueryClient

open QueryClient.Text

/-! ## Characters in a row -/

theorem hasInfix_iff {needle hay : List Char} : hasInfix needle hay ↔ needle <:+: hay := by
  induction hay with
  | nil => rw [hasInfix, List.isEmpty_iff, List.infix_nil]
  | cons c hay ih =>
    rw [hasInfix, Bool.or_eq_true, List.isPrefixOf_iff_prefix, ih, List.infix_cons_iff]

section

variable {α : Type} {a c : α} {needle front back xs : List α}

/-- What begins with an item that does not stand in front is found behind it. -/
theorem infix_append_iff_of_notMem (hhead : needle.head? = some a) (h : a ∉ front) :
    needle <:+: front ++ back ↔ needle <:+: back := by
  obtain ⟨rest, rfl⟩ := List.head?_eq_some_iff.1 hhead
  induction front with
  | nil => rfl
  | cons c front ih =>
    rw [List.cons_append, List.infix_cons_iff, ih (List.not_mem_of_not_mem_cons h),
      List.cons_prefix_cons]
    exact or_iff_right fun hprefix => List.ne_of_not_mem_cons h hprefix.1

theorem prefix_append_cons_iff (h : c ∉ needle) :
    needle <+: front ++ c :: back ↔ needle <+: front := by
  constructor
  · intro hneedle
    have hfront : front ++ [c] <+: front ++ c :: back :=
      (List.prefix_append_right_inj front).2 (List.cons_prefix_cons.2 ⟨rfl, List.nil_prefix⟩)
    have hmem : c ∈ front ++ [c] := List.mem_append_right _ (List.mem_singleton_self c)
    rcases List.prefix_or_prefix_of_prefix hneedle hfront with hle | hle
    · rcases List.prefix_concat_iff.1 hle with rfl | hle
      · exact absurd hmem h
      · exact hle
    · exact absurd (hle.subset hmem) h
  · exact fun hneedle => hneedle.trans (List.prefix_append _ _)

/-- What has no separator in it stands on one side of it. -/
theorem infix_append_cons_iff (hne : needle ≠ []) (h : c ∉ needle) :
    needle <:+: front ++ c :: back ↔ needle <:+: front ∨ needle <:+: back := by
  induction front with
  | nil =>
    have hprefix : ¬ needle <+: [] ++ c :: back := fun hneedle =>
      hne (List.prefix_nil.1 ((prefix_append_cons_iff h).1 hneedle))
    rw [List.nil_append] at hprefix
    rw [List.nil_append, List.infix_cons_iff, List.infix_nil, or_iff_right hprefix,
      or_iff_right hne]
  | cons a front ih =>
    rw [List.cons_append, List.infix_cons_iff, List.infix_cons_iff, ih, ← List.cons_append,
      prefix_append_cons_iff h, or_assoc]

/-- What begins with an item that is not dropped is found in the rest. -/
theorem infix_dropWhile_iff {p : α → Bool} (hhead : needle.head? = some a) (ha : p a = false) :
    needle <:+: xs.dropWhile p ↔ needle <:+: xs := by
  have hfront : a ∉ xs.takeWhile p := fun hmem =>
    Bool.false_ne_true (ha.symm.trans (List.mem_takeWhile_imp hmem))
  conv_rhs => rw [← List.takeWhile_append_dropWhile (p := p) (l := xs)]
  exact (infix_append_iff_of_notMem hhead hfront).symm

end

/-- What neither begins nor ends with a blank is not touched by trimming. -/
theorem infix_trimChars_iff {a b : Char} {needle cs : List Char} (hhead : needle.head? = some a)
    (hlast : needle.getLast? = some b) (ha : isBlank a = false) (hb : isBlank b = false) :
    needle <:+: trimChars cs ↔ needle <:+: cs := by
  have hreverse : needle.reverse.head? = some b := List.head?_reverse.trans hlast
  rw [trimChars, ← List.reverse_infix, List.reverse_reverse, infix_dropWhile_iff hreverse hb,
    List.reverse_infix, infix_dropWhile_iff hhead ha]

/-! ## Connection codes -/

/-- What a text that names a connection code has in it. -/
def connectionMarks : List String := nameServerText :: connectionCodes

/-- A mark begins with one of two letters, does not end with a blank and has no quotation mark. -/
theorem mark_spec : ∀ mark ∈ connectionMarks,
    (mark.toList.head? = some 'E' ∨ mark.toList.head? = some 'T') ∧
    mark.toList.getLast?.map isBlank = some false ∧ '\'' ∉ mark.toList := by
  decide

theorem mentionsConnectionCode_iff {text : String} :
    mentionsConnectionCode text ↔ ∃ mark ∈ connectionMarks, mark.toList <:+: text.toList := by
  rw [mentionsConnectionCode, Bool.or_eq_true, List.any_eq_true, connectionMarks]
  simp only [occursIn, hasInfix_iff, List.exists_mem_cons_iff]
  exact or_comm

theorem mentionsConnectionCode_congr {s t : String}
    (h : ∀ mark ∈ connectionMarks, mark.toList <:+: s.toList ↔ mark.toList <:+: t.toList) :
    mentionsConnectionCode s = mentionsConnectionCode t := by
  rw [Bool.eq_iff_iff, mentionsConnectionCode_iff, mentionsConnectionCode_iff]
  exact exists_congr fun mark => and_congr_right (h mark)

/-- Words in front in which no mark can begin change nothing. -/
theorem mentionsConnectionCode_append {front : String}
    (h : 'E' ∉ front.toList ∧ 'T' ∉ front.toList) (text : String) :
    mentionsConnectionCode (front ++ text) = mentionsConnectionCode text := by
  refine mentionsConnectionCode_congr fun mark hmark => ?_
  rw [String.toList_append]
  rcases (mark_spec mark hmark).1 with hhead | hhead
  · exact infix_append_iff_of_notMem hhead h.1
  · exact infix_append_iff_of_notMem hhead h.2

theorem mentionsConnectionCode_eq_false {text : String}
    (h : 'E' ∉ text.toList ∧ 'T' ∉ text.toList) : mentionsConnectionCode text = false := by
  have hempty := mentionsConnectionCode_append h ""
  rwa [String.append_empty] at hempty

/-- No mark reaches across a quotation mark. -/
theorem mentionsConnectionCode_quoted (front back : String) :
    mentionsConnectionCode (front ++ "'" ++ back) =
      (mentionsConnectionCode front || mentionsConnectionCode back) := by
  have hsplit : (front ++ "'" ++ back).toList = front.toList ++ '\'' :: back.toList := by
    rw [String.toList_append, String.toList_append, List.append_assoc]
    rfl
  rw [Bool.eq_iff_iff, Bool.or_eq_true]
  simp only [mentionsConnectionCode_iff, hsplit]
  rw [← exists_or]
  refine exists_congr fun mark => ?_
  rw [← and_or_left]
  refine and_congr_right fun hmark => ?_
  obtain ⟨hhead, -, hquote⟩ := mark_spec mark hmark
  have hne : mark.toList ≠ [] := by
    rintro hnil
    rw [hnil] at hhead
    rcases hhead with h | h <;> cases h
  exact infix_append_cons_iff hne hquote

/-- No mark reaches into the blanks around a text. -/
theorem mentionsConnectionCode_trim (text : String) :
    mentionsConnectionCode (trim text) = mentionsConnectionCode text := by
  refine mentionsConnectionCode_congr fun mark hmark => ?_
  obtain ⟨hhead, hblank, -⟩ := mark_spec mark hmark
  obtain ⟨b, hlast, hb⟩ := Option.map_eq_some_iff.1 hblank
  rw [trim, String.toList_ofList]
  rcases hhead with hhead | hhead <;> exact infix_trimChars_iff hhead hlast (by decide) hb

end QueryClient
