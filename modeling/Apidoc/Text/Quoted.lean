import Apidoc.Text.Basic
import Apidoc.Text.Printable

/-!
Quoted texts for messages. Quotes, backslashes and unprintable characters are escaped, so a quoted
text stays on one line.
-/
namespace Apidoc.Text

/-- Apostrophes enclose a text unless it holds one and no double quote. -/
def quoteMark (s : Text) : Char := if s.contains '\'' && !s.contains '"' then '"' else '\''

def quoteChar (mark c : Char) : Text :=
  if c = mark || c = '\\' then ['\\', c]
  else if c = '\t' then "\\t".toList
  else if c = '\n' then "\\n".toList
  else if c = '\r' then "\\r".toList
  else if isPrintable c then [c]
  else if c.toNat ≤ 0xFF then "\\x".toList ++ hex 2 c.toNat
  else if c.toNat ≤ 0xFFFF then "\\u".toList ++ hex 4 c.toNat
  else "\\U".toList ++ hex 8 c.toNat

def quoted (s : Text) : Text :=
  let mark := quoteMark s
  mark :: s.flatMap (quoteChar mark) ++ [mark]

end Apidoc.Text
