import SqlEngine.Text.Case
import SqlEngine.Text.EscapeTable

/-!
# Text — quoted form

`quoted` writes a text between double quotes so that every character of it can be seen.
-/

namespace SqlEngine.Text

/-- The characters that stand for a character in a quoted text. -/
def escape (c : Char) : List Char :=
  match c with
  | '\x00' => ['\\', '0']
  | '\t'   => ['\\', 't']
  | '\r'   => ['\\', 'r']
  | '\n'   => ['\\', 'n']
  | '"'    => ['\\', '"']
  | '\\'   => ['\\', '\\']
  | _      =>
    if inRanges unshown c.toNat then
      ['\\', 'u', '\x7b'] ++ Nat.toDigits 16 c.toNat ++ ['\x7d']
    else [c]

/-- A text between double quotes. -/
def quoted (s : String) : String :=
  String.ofList ('"' :: (s.toList.flatMap escape ++ ['"']))

end SqlEngine.Text
