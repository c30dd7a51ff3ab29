import ScriptFront.Text.Printable
import ScriptFront.Text.Combining

namespace ScriptFront.Text

/-- The code point of `c` in hexadecimal between braces, without leading zeros. -/
def codePointEscape (c : Char) : List Char :=
  "\\u\x7b".toList ++ Nat.toDigits 16 c.toNat ++ ['\x7d']

/-- How one character stands between double quotes: the quote and the backslash
behind a backslash, four controls by letter, and whatever would not show, or
would join its neighbour, by code point. -/
def escapeChar (c : Char) : List Char :=
  match c with
  | '\x00' => ['\\', '0']
  | '\t' => ['\\', 't']
  | '\n' => ['\\', 'n']
  | '\r' => ['\\', 'r']
  | '"' => ['\\', '"']
  | '\\' => ['\\', '\\']
  | c => if isCombining c || !isPrintable c then codePointEscape c else [c]

/-- The text between double quotes, every character recognisable. -/
def quoted (text : String) : String :=
  String.ofList ('"' :: text.toList.flatMap escapeChar ++ ['"'])

end ScriptFront.Text
