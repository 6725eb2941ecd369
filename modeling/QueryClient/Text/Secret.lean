/-
  Texts that look like credentials.

  Three kinds of secrets are found anywhere in a text, at a word boundary: signed tokens of
  three segments, bearer tokens, and a key word with a value after it.  Two kinds make up a
  whole text: long hexadecimal and long Base64 texts.

  Every secret of the first three kinds begins with a word character, so that it stands at a
  word boundary exactly if no word character stands before it.
-/
import QueryClient.Text.Blank
import QueryClient.Text.Hex
import QueryClient.Text.Word

namespace QueryClient.Text

/-! ## Letters -/

/-- A letter without regard to case: the long s is an s, and the sign for kelvin is a k. -/
def foldCase (c : Char) : Char :=
  if c = 'ſ' then 's' else if c = '\u212A' then 'k' else c.toLower

/-- A character of the segments of a signed token. -/
def isUrlSafe (c : Char) : Bool := c.isAlphanum || c = '_' || c = '-'

/-- A character of a bearer token, where letters count in all their cases. -/
def isTokenChar (c : Char) : Bool :=
  (foldCase c).isAlphanum || c ∈ ['.', '_', '~', '+', '/', '=', '-']

/-- A character of Base64 in either of its alphabets. -/
def isBase64 (c : Char) : Bool := isUrlSafe c || c = '+' || c = '/'

/-- What follows a word, given in lower case, at the front of some characters. -/
def afterWord? : (word : List Char) → List Char → Option (List Char)
  | [], cs => some cs
  | w :: word, c :: cs => if foldCase c = w then afterWord? word cs else none
  | _ :: _, [] => none

/-! ## Secrets at a place in a text -/

/-- What follows a segment of a signed token and the point after it. -/
def afterSegment? (cs : List Char) : Option (List Char) :=
  match cs.span isUrlSafe with
  | (_ :: _, '.' :: rest) => some rest
  | _ => none

/-- A signed token: a header that starts like an encoded object, and two further segments, of
which the last one may be empty. -/
def startsSignedToken : List Char → Bool
  | 'e' :: 'y' :: 'J' :: rest => ((afterSegment? rest).bind afterSegment?).isSome
  | _ => false

/-- The word bearer, blanks and at least eight characters of a token. -/
def startsBearerToken (cs : List Char) : Bool :=
  match afterWord? "bearer".toList cs with
  | some (c :: rest) =>
    isBlank c && 8 ≤ ((rest.dropWhile isBlank).takeWhile isTokenChar).length
  | _ => false

/-- The words that a secret value comes after. -/
def secretWords : List String :=
  ["password", "passwd", "pwd", "secret", "token"] ++
    ["api", "access", "private"].flatMap fun word =>
      ["", "_", "-"].map fun mark => word ++ mark ++ "key"

/-- A secret word with an equals sign or a colon after it. -/
def startsSecretPair (cs : List Char) : Bool :=
  secretWords.any fun word =>
    match (afterWord? word.toList cs).map (·.dropWhile isBlank) with
    | some (c :: _) => c = '=' || c = ':'
    | _ => false

def startsSecret (cs : List Char) : Bool :=
  startsSignedToken cs || startsBearerToken cs || startsSecretPair cs

/-- Whether a secret starts somewhere in some characters, before which a word character stands
or not. -/
def hasSecret (afterWordChar : Bool) : List Char → Bool
  | [] => false
  | c :: cs => (!afterWordChar && startsSecret (c :: cs)) || hasSecret (isWord c) cs

/-! ## Secrets that make up a text -/

/-- At least 32 hexadecimal digits. -/
def isLongHex (cs : List Char) : Bool :=
  32 ≤ cs.length && cs.all fun c => (hexValue? c).isSome

/-- At least 40 characters of Base64 with at most two equals signs after them. -/
def isLongBase64 (cs : List Char) : Bool :=
  let (body, padding) := cs.span isBase64
  40 ≤ body.length && padding.length ≤ 2 && padding.all (· = '=')

/-- Whether a text looks like a credential. -/
def looksSecret (s : String) : Bool :=
  let cs := s.toList
  hasSecret false cs || isLongHex cs || isLongBase64 cs

end QueryClient.Text
