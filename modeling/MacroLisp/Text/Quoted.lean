/-
  Text in quotes, for messages: what was written can be told apart from the
  words around it, and every character in it can be seen.

  * `escape c` spells one character: the quote and the backslash after a
    backslash, tab, line feed, carriage return and NUL by a letter, any other
    character that does not show by its number, and all else as it is;
  * `quoted s` is the whole text between two quotes.
-/
import MacroLisp.Text.Unprintable

namespace MacroLisp.Text

/-- The number of `c` in lower-case hexadecimal digits, between braces. -/
def escapeNumber (c : Char) : List Char :=
  ['\\', 'u', '\x7b'] ++ Nat.toDigits 16 c.toNat ++ ['\x7d']

/-- The spelling of one character inside quotes. -/
def escape (c : Char) : List Char :=
  if c = '"' then ['\\', '"']
  else if c = '\\' then ['\\', '\\']
  else if c = '\t' then ['\\', 't']
  else if c = '\n' then ['\\', 'n']
  else if c = '\r' then ['\\', 'r']
  else if c = '\x00' then ['\\', '0']
  else if isUnprintable c then escapeNumber c
  else [c]

/-- The text `s` between quotes. -/
def quoted (s : String) : String :=
  String.ofList ('"' :: s.toList.flatMap escape ++ ['"'])

/-- The quoted text of a concatenation is made of the quoted parts. -/
theorem toList_quoted_append (s t : String) :
    (quoted (s ++ t)).toList = '"' :: s.toList.flatMap escape ++ t.toList.flatMap escape ++ ['"'] := by
  simp [quoted]

end MacroLisp.Text
