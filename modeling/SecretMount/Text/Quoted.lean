import SecretMount.Text.Visible

/-!
# Quoted texts

* `Text.quoted` : a text between double quotes, in which everything that would not show is escaped:
  the quote, the backslash and the commonest controls by one letter, any other hidden character by
  its number in hexadecimal;
* `Text.quotedList` : quoted texts in a list.
-/

namespace SecretMount.Text

/-- The way `c` is written between quotes. -/
def quotedChar (c : Char) : List Char :=
  match c with
  | '\x00' => ['\\', '0']
  | '\t' => ['\\', 't']
  | '\r' => ['\\', 'r']
  | '\n' => ['\\', 'n']
  | '\\' => ['\\', '\\']
  | '"' => ['\\', '"']
  | c =>
    if isHidden c then ['\\', 'u', '\x7b'] ++ Nat.toDigits 16 c.toNat ++ ['\x7d'] else [c]

def quoted (s : String) : String :=
  String.ofList ('"' :: (s.toList.flatMap quotedChar ++ ['"']))

def quotedList (l : List String) : String :=
  "[" ++ String.intercalate ", " (l.map quoted) ++ "]"

end SecretMount.Text
