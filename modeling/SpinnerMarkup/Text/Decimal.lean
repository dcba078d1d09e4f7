import SpinnerMarkup.Text.Basic

/-! Unsigned decimals of at most thirty-two bits, as a class size writes them: one optional plus
sign, then one or more digits of ASCII; leading zeros are allowed. -/
namespace SpinnerMarkup.Text

/-- The value of a run of digits. -/
def digitsValue (s : Text) : Nat := s.foldl (fun n c => 10 * n + (c.toNat - 48)) 0

/-- The largest value a size may have. -/
def maxDecimal : Nat := 4294967295

/-- The number a text writes, if it writes one and the number is at most `maxDecimal`. -/
def decimal? (s : Text) : Option Nat :=
  let digits := match s with
    | '+' :: rest => rest
    | s => s
  if digits ≠ [] ∧ digits.all isDigit ∧ digitsValue digits ≤ maxDecimal then
    some (digitsValue digits)
  else
    none

end SpinnerMarkup.Text
