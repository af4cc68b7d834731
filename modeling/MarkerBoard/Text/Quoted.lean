import MarkerBoard.Text.Basic
import MarkerBoard.Text.Printable

/-!
# Quoted texts

Messages about files and patterns show a text between quotes, so that its ends and its unusual
characters can be seen. Single quotes are used unless the text has a single quote and no double
one.
-/
namespace MarkerBoard.Text

/-- A number in a fixed count of hexadecimal digits. -/
def hex (width n : Nat) : Text := padStart width '0' (Nat.toDigits 16 n)

/-- The quote that goes around a text. -/
def quoteFor (t : Text) : Char :=
  if t.contains '\'' && !t.contains '"' then '"' else '\''

/-- One character inside quotes. -/
def quoteChar (quote c : Char) : Text :=
  if c = '\\' then "\\\\".toList
  else if c = quote then ['\\', c]
  else if c = '\n' then "\\n".toList
  else if c = '\r' then "\\r".toList
  else if c = '\t' then "\\t".toList
  else if isPrintable c then [c]
  else if c.toNat < 0x100 then "\\x".toList ++ hex 2 c.toNat
  else if c.toNat < 0x10000 then "\\u".toList ++ hex 4 c.toNat
  else "\\U".toList ++ hex 8 c.toNat

/-- The text between quotes. -/
def quoted (t : Text) : Text :=
  let q := quoteFor t
  q :: t.flatMap (quoteChar q) ++ [q]

end MarkerBoard.Text
