/-
  Identifiers: the names of tables, schemas, columns, functions and text search
  configurations.

  An identifier starts with an ASCII letter or an underscore, goes on with ASCII letters,
  digits and underscores, and has at most 63 bytes.  `IsIdent` is this grammar, and every
  `Ident` satisfies it, so that a name needs no escaping between quotes.

  * `Ident.parse` is the only way from text to an identifier; where the grammar does not hold
    it says what is wrong first: emptiness, length, the first character, any other one.
-/
import QueryClient.Error.Basic
import QueryClient.Text.Utf8

namespace QueryClient

open QueryClient.Text

/-- What an identifier names. -/
inductive IdentKind where
  | table | schema | column | function | searchConfig
  deriving DecidableEq, Repr

def IdentKind.word : IdentKind → String
  | .table => "table"
  | .schema => "schema"
  | .column => "column"
  | .function => "function"
  | .searchConfig => "text search config"

namespace Ident

/-- The greatest number of bytes in an identifier. -/
def maxLength : Nat := 63

/-- An ASCII letter or an underscore. -/
def isFirst (c : Char) : Bool := c = '_' || c.isAlpha

/-- An ASCII letter or digit or an underscore. -/
def isRest (c : Char) : Bool := c = '_' || c.isAlphanum

end Ident

/-- The grammar of identifiers. -/
def IsIdent (cs : List Char) : Prop :=
  cs.length ≤ Ident.maxLength ∧
    match cs with
    | [] => False
    | c :: rest => Ident.isFirst c ∧ ∀ d ∈ rest, Ident.isRest d

instance : (cs : List Char) → Decidable (IsIdent cs)
  | [] => .isFalse fun h => h.2
  | c :: rest =>
    decidable_of_iff
      ((c :: rest).length ≤ Ident.maxLength ∧ Ident.isFirst c ∧ rest.all Ident.isRest)
      (by simp [IsIdent])

/-- A name that satisfies the grammar of identifiers. -/
structure Ident where
  name : String
  isIdent : IsIdent name.toList

instance : DecidableEq Ident := fun a b =>
  if h : a.name = b.name then isTrue (by cases a; cases b; cases h; rfl)
  else isFalse fun e => h (by rw [e])

namespace Ident

/-- What a text that is no identifier has wrong. -/
inductive Flaw where
  | empty
  | tooLong
  | badFirst
  | badChar (c : Char)
  deriving DecidableEq, Repr

/-- The first flaw of a name: the length is counted in bytes. -/
def flaw? (name : String) : Option Flaw :=
  match name.toList with
  | [] => some .empty
  | c :: rest =>
    if maxLength < byteLength (c :: rest) then some .tooLong
    else if !isFirst c then some .badFirst
    else (rest.find? (!isRest ·)).map .badChar

/-- The text for a flaw of a name. -/
def Flaw.message (kind : IdentKind) (name : String) : Flaw → String
  | .empty => "Invalid " ++ kind.word ++ " name: empty identifier"
  | .tooLong =>
    "Invalid " ++ kind.word ++ " name: identifier longer than " ++ toString maxLength ++
      " characters"
  | .badFirst =>
    "Invalid " ++ kind.word ++ " name '" ++ name ++ "': must start with a letter or underscore"
  | .badChar c =>
    "Invalid " ++ kind.word ++ " name '" ++ name ++ "': unexpected character '" ++
      String.singleton c ++ "'"

theorem isIdent_of_flaw?_eq_none {name : String} (h : flaw? name = none) :
    IsIdent name.toList := by
  unfold flaw? at h
  split at h
  · simp at h
  · next c rest hn =>
    split at h
    · simp at h
    · next hl =>
      split at h
      · simp at h
      · next hf =>
        have hlen : (c :: rest).length ≤ maxLength :=
          Nat.le_trans (length_le_byteLength _) (Nat.le_of_not_lt hl)
        rw [hn]
        refine ⟨hlen, ?_, ?_⟩
        · simpa using hf
        · intro d hd
          simp only [Option.map_eq_none_iff, List.find?_eq_none] at h
          simpa using h d hd

/-- The identifier with a given name, or what is wrong with the name. -/
def parse (kind : IdentKind) (name : String) : Except Error Ident :=
  match h : flaw? name with
  | some f => .error (.validation (f.message kind name))
  | none => .ok ⟨name, isIdent_of_flaw?_eq_none h⟩

/-- The name between double quotes. -/
def quoted (i : Ident) : List Char := '"' :: (i.name.toList ++ ['"'])

end Ident

end QueryClient
