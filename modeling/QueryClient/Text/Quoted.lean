/-
  Texts shown between double quotes with everything visible: quotes, backslashes and line ends
  are escaped, and so are hidden characters, by their number in hexadecimal between braces.
-/
import QueryClient.Text.Hidden

namespace QueryClient.Text

/-- A character as it is shown. -/
def showChar (c : Char) : List Char :=
  match c with
  | '"' => ['\\', '"']
  | '\\' => ['\\', '\\']
  | '\n' => ['\\', 'n']
  | '\r' => ['\\', 'r']
  | '\t' => ['\\', 't']
  | '\x00' => ['\\', '0']
  | c =>
    if isHidden c then '\\' :: 'u' :: '\x7b' :: (Nat.toDigits 16 c.toNat ++ ['\x7d'])
    else [c]

/-- A text as it is shown. -/
def showText (s : String) : String :=
  String.ofList ('"' :: (s.toList.flatMap showChar ++ ['"']))

end QueryClient.Text
