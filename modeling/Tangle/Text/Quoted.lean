import Tangle.Text.Printable

/-!
# Quoted text

Text inside double quotes as messages show it. A backslash, a quote and whatever is not printable
are written as escapes.
-/

namespace Tangle.Text

/-- A character as it stands between the quotes. -/
def escapeChar (c : Char) : Text :=
  if c = '"' then ['\\', '"']
  else if c = '\\' then ['\\', '\\']
  else if c = '\t' then ['\\', 't']
  else if c = '\n' then ['\\', 'n']
  else if c = '\r' then ['\\', 'r']
  else if c = '\x00' then ['\\', '0']
  else if isPrintable c then [c]
  else '\\' :: 'u' :: '\x7b' :: Nat.toDigits 16 c.toNat ++ ['\x7d']

/-- The text in double quotes. -/
def quote (s : Text) : Text := '"' :: s.flatMap escapeChar ++ ['"']

end Tangle.Text
