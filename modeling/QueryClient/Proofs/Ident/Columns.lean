/-
  Identifiers and lists of columns as they are read and written.

  * `Ident.pattern` is the grammar of identifiers, `Ident.parse_eq_ok_iff`;
  * `Text.map_trimChars_splitOn`: the parts of a list do not depend on the blanks around it;
  * `ColumnList.parse_eq_ok_iff`: which lists are read, and as what;
  * `ColumnList.parse_joined`: names with blanks around them and commas between them are read as
    these names.
-/
import QueryClient.Proofs.Number.Digits
import QueryClient.Proofs.Statement.Acceptance
import QueryClient.Proofs.Statement.Insertion
import QueryClient.Proofs.Text.Letters
import QueryClient.Proofs.Text.Pattern
import Mathlib.Data.List.TakeWhile

namespace QueryClient

open QueryClient.Text

/-! ## Blanks -/

namespace Text
variable {cs front back : List Char}

/-- Characters that are all blanks. -/
def IsBlank (cs : List Char) : Prop := ∀ c ∈ cs, isBlank c

theorem trimChars_blanks_append (hfront : IsBlank front) :
    trimChars (front ++ cs) = trimChars cs := by
  rw [trimChars, List.dropWhile_append_of_pos hfront, trimChars]

theorem trimChars_append_blanks (hback : IsBlank back) :
    trimChars (cs ++ back) = trimChars cs := by
  have hreverse : ∀ c ∈ back.reverse, isBlank c := fun c hc => hback c (List.mem_reverse.1 hc)
  rw [trimChars, trimChars, List.dropWhile_append]
  split_ifs with hempty
  · rw [List.isEmpty_iff.1 hempty, List.dropWhile_eq_nil_iff.2 hback]
  · rw [List.reverse_append, List.dropWhile_append_of_pos hreverse]

theorem trimChars_eq_self (h : ∀ c ∈ cs, isBlank c = false) : trimChars cs = cs := by
  have htrim := congrArg String.toList (Number.trim_ofList h)
  rwa [trim, String.toList_ofList, String.toList_ofList] at htrim

/-- Trimming takes blanks off both ends. -/
theorem exists_blanks_trimChars (cs : List Char) : ∃ front back,
    IsBlank front ∧ IsBlank back ∧ cs = front ++ trimChars cs ++ back := by
  have hfront := List.takeWhile_append_dropWhile (p := isBlank) (l := cs)
  have hback := List.takeWhile_append_dropWhile (p := isBlank) (l := (cs.dropWhile isBlank).reverse)
  refine ⟨cs.takeWhile isBlank, ((cs.dropWhile isBlank).reverse.takeWhile isBlank).reverse,
    fun c hc => List.mem_takeWhile_imp hc,
    fun c hc => List.mem_takeWhile_imp (List.mem_reverse.1 hc), ?_⟩
  rw [trimChars, List.append_assoc, ← List.reverse_append, hback, List.reverse_reverse, hfront]

/-! ### Parts -/

theorem splitCommas_eq (cs : List Char) : ColumnList.splitCommas cs = cs.splitOn ',' := by
  fun_induction ColumnList.splitCommas cs with
  | case1 => rfl
  | case2 rest ih => rw [List.splitOn_cons_eq_if_modifyHead, if_pos (by decide), ih]
  | case3 c rest hc hnil ih => exact absurd (ih.symm.trans hnil) (List.splitOn_ne_nil _ _)
  | case4 c rest hc part parts hparts ih =>
    rw [List.splitOn_cons_eq_if_modifyHead, if_neg (by simpa using hc), ← ih, hparts,
      List.modifyHead_cons]

theorem map_trimChars_modifyHead {c : Char} (hc : isBlank c) (parts : List (List Char)) :
    (parts.modifyHead (List.cons c)).map trimChars = parts.map trimChars := by
  cases parts with
  | nil => rfl
  | cons part parts =>
    have hfront : IsBlank [c] := List.forall_mem_singleton.2 hc
    have hpart : trimChars (c :: part) = trimChars part := trimChars_blanks_append hfront
    rw [List.modifyHead_cons, List.map_cons, List.map_cons, hpart]

theorem comma_notMem (hback : IsBlank back) : ',' ∉ back := fun h =>
  absurd (hback _ h) (by decide)

/-- Blanks at the end of a list go to its last part. -/
theorem splitOn_append_blanks (hback : IsBlank back) (cs : List Char) :
    List.Forall₂ (fun part part' => ∃ blanks, IsBlank blanks ∧ part = part' ++ blanks)
      ((cs ++ back).splitOn ',') (cs.splitOn ',') := by
  induction cs with
  | nil =>
    rw [List.nil_append, List.splitOn_eq_singleton (comma_notMem hback), List.splitOn_nil]
    exact .cons ⟨back, hback, rfl⟩ .nil
  | cons c cs ih =>
    rw [List.cons_append, List.splitOn_cons_eq_if_modifyHead, List.splitOn_cons_eq_if_modifyHead]
    split_ifs with hc
    · exact .cons ⟨[], nofun, rfl⟩ ih
    · generalize (cs ++ back).splitOn ',' = parts, cs.splitOn ',' = parts' at ih ⊢
      cases ih with
      | nil => exact .nil
      | cons hpart hparts =>
        obtain ⟨blanks, hblanks, rfl⟩ := hpart
        exact .cons ⟨blanks, hblanks, rfl⟩ hparts

/-- The parts of a list do not depend on the blanks around it. -/
theorem map_trimChars_splitOn (hfront : IsBlank front) (hback : IsBlank back) (cs : List Char) :
    ((front ++ cs ++ back).splitOn ',').map trimChars = (cs.splitOn ',').map trimChars := by
  have hlast : ((cs ++ back).splitOn ',').map trimChars = (cs.splitOn ',').map trimChars := by
    refine map_eq_of_forall₂ ((splitOn_append_blanks hback cs).imp ?_)
    rintro _ part ⟨blanks, hblanks, rfl⟩
    exact trimChars_append_blanks hblanks
  rw [← hlast, List.append_assoc]
  induction front with
  | nil => rfl
  | cons c front ih =>
    obtain ⟨hc, hfront⟩ := List.forall_mem_cons.1 hfront
    have hne : ¬ (c == ',') := fun he => absurd (eq_of_beq he ▸ hc) (by decide)
    rw [List.cons_append, List.splitOn_cons_eq_if_modifyHead, if_neg hne,
      map_trimChars_modifyHead hc, ih hfront]

end Text

/-! ## Identifiers -/

namespace Ident
variable {kind : IdentKind} {text : String} {i : Ident}

/-- The grammar of identifiers. -/
def pattern : Pattern := .row [.one isFirst, .chars isRest 0 (some 62)]

theorem isIdent_iff {cs : List Char} : IsIdent cs ↔ pattern.Matches [] cs [] := by
  constructor
  · intro h
    cases cs with
    | nil => exact absurd h.2 id
    | cons c rest =>
      obtain ⟨hlength, hfirst, hrest⟩ := h
      refine ⟨[c], rest, rfl, ⟨Nat.le_refl 1, by simp, by simpa using hfirst⟩, rest, [],
        (List.append_nil rest).symm, ⟨Nat.zero_le _, ?_, hrest⟩, rfl⟩
      rintro _ ⟨⟩
      exact Nat.le_of_succ_le_succ hlength
  · rintro ⟨front, _, rfl, ⟨hleast, hmost, hfirst⟩, rest, _, rfl, ⟨-, hlong, hrest⟩, rfl⟩
    obtain ⟨c, rfl⟩ := List.length_eq_one_iff.1 (Nat.le_antisymm (hmost 1 rfl) hleast)
    rw [List.append_nil]
    exact ⟨Nat.succ_le_succ (hlong 62 rfl), hfirst c (List.mem_singleton_self c), hrest⟩

theorem parse_eq_ok_iff : parse kind text = .ok i ↔ i.name = text := by
  refine ⟨parse_ok, ?_⟩
  rintro rfl
  obtain ⟨i', hi'⟩ : ∃ i', parse kind i.name = .ok i' := exists_parse_iff.2 i.isIdent
  obtain ⟨name, _⟩ := i
  obtain ⟨name', _⟩ := i'
  obtain rfl : name' = name := parse_ok hi'
  exact hi'

/-- Texts are the texts of some identifiers exactly if each fits the grammar. -/
theorem exists_map_name_iff {texts : List (List Char)} :
    (∃ is : List Ident, is.map (·.name.toList) = texts) ↔ ∀ cs ∈ texts, IsIdent cs := by
  constructor
  · rintro ⟨is, rfl⟩ cs hcs
    obtain ⟨i, -, rfl⟩ := List.mem_map.1 hcs
    exact i.isIdent
  · intro h
    refine ⟨texts.pmap (fun cs hcs => ⟨String.ofList cs, by rwa [String.toList_ofList]⟩) h, ?_⟩
    simp [List.map_pmap]

/-- A name has no blank and no comma. -/
theorem plain_of_mem {c : Char} (h : c ∈ i.name.toList) : isBlank c = false ∧ c ≠ ',' := by
  rcases Bool.or_eq_true_iff.1 (i.isRest_of_mem h) with h | h
  · rw [of_decide_eq_true h]
    decide
  · exact ⟨Bool.eq_false_iff.2 (isWord_of_isAlphanum h).2.1, (isWord_of_isAlphanum h).2.2⟩

end Ident

/-! ## Lists of columns -/

theorem mapM_eq_ok_iff {ε α β : Type} {f : α → Except ε β} {xs : List α} {ys : List β} :
    xs.mapM f = .ok ys ↔ List.Forall₂ (fun x y => f x = .ok y) xs ys := by
  refine ⟨mapM_forall₂, fun h => ?_⟩
  induction h with
  | nil => rfl
  | cons hy _ ih =>
    rw [List.mapM_cons, hy, ih]
    rfl

namespace ColumnList
variable {text : String} {columns : ColumnList} {is : List Ident}

/-- **The column lists that are read**: a star, as all columns, and names with commas between them,
as these names in order. -/
theorem parse_eq_ok_iff : parse text = .ok columns ↔
    (trimChars text.toList = ['*'] ∧ columns = .all) ∨
    ∃ is, columns = .only is ∧
      is.map (·.name.toList) = (text.toList.splitOn ',').map trimChars := by
  have hparts : ((trimChars text.toList).splitOn ',').map trimChars =
      (text.toList.splitOn ',').map trimChars := by
    obtain ⟨front, back, hfront, hback, htext⟩ := exists_blanks_trimChars text.toList
    conv_rhs => rw [htext]
    exact (map_trimChars_splitOn hfront hback _).symm
  rw [← hparts]
  -- no name is a star, or nothing
  have hnames : ∀ cs : List Char, ¬ IsIdent cs → trimChars text.toList = cs →
      trimChars cs = cs → ',' ∉ cs → ∀ is : List Ident,
      is.map (·.name.toList) ≠ ((trimChars text.toList).splitOn ',').map trimChars := by
    intro cs hcs htext htrim hcomma is his
    rw [htext, List.splitOn_eq_singleton hcomma, List.map_singleton, htrim] at his
    obtain ⟨i, -, hi⟩ := List.map_eq_singleton_iff.1 his
    exact hcs (hi ▸ i.isIdent)
  unfold parse
  split
  · next hstar =>
    constructor
    · intro h
      exact Or.inl ⟨hstar, (Except.ok.inj h).symm⟩
    · rintro (⟨-, rfl⟩ | ⟨is, -, his⟩)
      · rfl
      · exact absurd his (hnames ['*'] (by decide) hstar (by decide) (by decide) is)
  · next hempty =>
    refine ⟨fun h => (nomatch h), ?_⟩
    rintro (⟨hstar, -⟩ | ⟨is, -, his⟩)
    · exact absurd (hempty.symm.trans hstar) (by decide)
    · exact absurd his (hnames [] (by decide) hempty (by decide) (by decide) is)
  · next hstar hempty =>
    rw [bind_eq_ok, splitCommas_eq]
    simp only [mapM_eq_ok_iff, Ident.parse_eq_ok_iff]
    have hforall : ∀ is : List Ident,
        List.Forall₂ (fun part i => i.name = String.ofList (trimChars part))
          ((trimChars text.toList).splitOn ',') is ↔
        is.map (·.name.toList) = ((trimChars text.toList).splitOn ',').map trimChars := by
      intro is
      have hname : ∀ (part : List Char) (i : Ident),
          i.name = String.ofList (trimChars part) ↔ trimChars part = i.name.toList :=
        fun part i => ⟨fun h => by rw [h, String.toList_ofList],
          fun h => by rw [h, String.ofList_toList]⟩
      rw [eq_comm, ← iff_of_eq (congrFun₂ List.forall₂_eq_eq_eq _ _), List.forall₂_map_left_iff,
        List.forall₂_map_right_iff]
      simp only [hname]
    simp only [hforall]
    constructor
    · rintro ⟨is, his, h⟩
      exact Or.inr ⟨is, (Except.ok.inj h).symm, his⟩
    · rintro (⟨hstar', -⟩ | ⟨is, rfl, his⟩)
      · exact absurd hstar' hstar
      · exact ⟨is, his, rfl⟩

/-- A name with blanks around it. -/
def Padded (i : Ident) (cs : List Char) : Prop :=
  ∃ front back, IsBlank front ∧ IsBlank back ∧ cs = front ++ i.name.toList ++ back

/-- **Names with blanks around them and commas between them** are read as these names. -/
theorem parse_joined {parts : List (List Char)} (hne : is ≠ [])
    (h : List.Forall₂ Padded is parts) :
    parse (String.ofList ([','].intercalate parts)) = .ok (.only is) := by
  have hparts : parts ≠ [] := by
    rintro rfl
    cases h
    exact hne rfl
  have hcomma : ∀ part ∈ parts, ',' ∉ part := by
    intro part hpart hmem
    obtain ⟨i, -, front, back, hfront, hback, rfl⟩ := forall₂_mem_right h part hpart
    rcases List.mem_append.1 hmem with hmem | hmem
    · rcases List.mem_append.1 hmem with hmem | hmem
      · exact comma_notMem hfront hmem
      · exact (Ident.plain_of_mem hmem).2 rfl
    · exact comma_notMem hback hmem
  have htrim : is.map (·.name.toList) = parts.map trimChars := by
    refine map_eq_of_forall₂ (h.imp ?_)
    rintro i _ ⟨front, back, hfront, hback, rfl⟩
    rw [trimChars_append_blanks hback, trimChars_blanks_append hfront,
      trimChars_eq_self fun c hc => (Ident.plain_of_mem hc).1]
  refine parse_eq_ok_iff.2 (Or.inr ⟨is, rfl, ?_⟩)
  rw [String.toList_ofList, List.splitOn_intercalate ',' hcomma hparts, htrim]

end ColumnList

/-- **Identifiers and column lists.**  A text is read as an identifier, of any kind, exactly if it
fits the grammar.  It is read as a list of columns exactly if it is a star without the blanks around
it, or its parts between commas fit the grammar without theirs; the columns are then these parts
in order, which are read again from any text that has them between commas, with any blanks around
each, and are written between double quotes, with a comma and a space between them. -/
theorem columns_read (text : String) :
    (∀ kind, (∃ i, Ident.parse kind text = .ok i) ↔ Ident.pattern.Matches [] text.toList []) ∧
    ((∃ columns, ColumnList.parse text = .ok columns) ↔ trimChars text.toList = ['*'] ∨
      ∀ part ∈ text.toList.splitOn ',', Ident.pattern.Matches [] (trimChars part) []) ∧
    (ColumnList.parse text = .ok .all ↔ trimChars text.toList = ['*']) ∧
    (∀ is, ColumnList.parse text = .ok (.only is) →
      is.map (·.name.toList) = (text.toList.splitOn ',').map trimChars ∧
      (∀ parts, List.Forall₂ ColumnList.Padded is parts →
        ColumnList.parse (String.ofList ([','].intercalate parts)) = .ok (.only is)) ∧
      ∀ n, Piece.textFrom n (ColumnList.only is).pieces =
        (", ".intercalate (is.map fun i => "\"" ++ i.name ++ "\"")).toList) := by
  refine ⟨fun kind => ?_, ?_, ?_, fun is his => ?_⟩
  · rw [Ident.exists_parse_iff, ← Ident.isIdent_iff]
    rfl
  · have hnames : (∃ is : List Ident, is.map (·.name.toList) =
        (text.toList.splitOn ',').map trimChars) ↔
        ∀ part ∈ text.toList.splitOn ',', Ident.pattern.Matches [] (trimChars part) [] := by
      rw [Ident.exists_map_name_iff, List.forall_mem_map]
      simp only [Ident.isIdent_iff]
    rw [← hnames]
    simp only [ColumnList.parse_eq_ok_iff]
    constructor
    · rintro ⟨_, ⟨hstar, -⟩ | ⟨is, -, his⟩⟩
      · exact Or.inl hstar
      · exact Or.inr ⟨is, his⟩
    · rintro (hstar | ⟨is, his⟩)
      · exact ⟨.all, Or.inl ⟨hstar, rfl⟩⟩
      · exact ⟨.only is, Or.inr ⟨is, rfl, his⟩⟩
  · rw [ColumnList.parse_eq_ok_iff]
    refine ⟨?_, fun hstar => Or.inl ⟨hstar, rfl⟩⟩
    rintro (⟨hstar, -⟩ | ⟨_, h, -⟩)
    · exact hstar
    · cases h
  · obtain ⟨-, h⟩ | ⟨_, h, hparts⟩ := ColumnList.parse_eq_ok_iff.1 his
    · cases h
    cases h
    have hne : is ≠ [] := by
      rintro rfl
      exact List.splitOn_ne_nil _ _ (List.map_eq_nil_iff.1 hparts.symm)
    exact ⟨hparts, fun parts => ColumnList.parse_joined hne, fun n => Piece.textFrom_names n is⟩

/-- Two names with blanks around them, of which one is beyond ASCII. -/
theorem columns_read_of_blanks :
    ∃ is, is.map Ident.name = ["id", "_x9"] ∧
      ColumnList.parse " id,\u2003_x9\n" = .ok (.only is) ∧
      List.Forall₂ ColumnList.Padded is ["id".toList, "\u2003_x9 ".toList] ∧
      ColumnList.parse (String.ofList ([','].intercalate ["id".toList, "\u2003_x9 ".toList])) =
        .ok (.only is) := by
  let is : List Ident := [⟨"id", by decide⟩, ⟨"_x9", by decide⟩]
  have hread : ColumnList.parse " id,\u2003_x9\n" = .ok (.only is) :=
    ColumnList.parse_eq_ok_iff.2 (Or.inr ⟨is, rfl, by decide +kernel⟩)
  have hfront : IsBlank ['\u2003'] := List.forall_mem_singleton.2 (by decide)
  have hback : IsBlank [' '] := List.forall_mem_singleton.2 (by decide)
  have hparts : List.Forall₂ ColumnList.Padded is ["id".toList, "\u2003_x9 ".toList] :=
    .cons ⟨[], [], nofun, nofun, by decide⟩ (.cons ⟨_, _, hfront, hback, by decide⟩ .nil)
  exact ⟨is, rfl, hread, hparts, ((columns_read _).2.2.2 is hread).2.1 _ hparts⟩

end QueryClient
