import SpinnerMarkup.Text.Invisible

/-! Texts in quotation marks, as error messages show them.

Between double marks a backslash, a double mark, a line end, a tab and a null character are written
with a backslash, an invisible character by its number in braces, everything else as it is. -/
namespace SpinnerMarkup.Text

/-- The number of a character in lower-case hexadecimal. -/
def hex (c : Char) : Text := Nat.toDigits 16 c.toNat

/-- How one character is written between double marks. -/
def escape (c : Char) : Text :=
  if c = '\x00' then ['\\', '0']
  else if c = '\t' then ['\\', 't']
  else if c = '\r' then ['\\', 'r']
  else if c = '\n' then ['\\', 'n']
  else if c = '\\' || c = doubleQuote then ['\\', c]
  else if isInvisible c then ['\\', 'u', '\x7b'] ++ hex c ++ ['\x7d']
  else [c]

def quote (s : Text) : Text := doubleQuote :: s.flatMap escape ++ [doubleQuote]

end SpinnerMarkup.Text
