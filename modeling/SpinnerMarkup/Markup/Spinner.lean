import SpinnerMarkup.Text.Decimal

/-! What class tokens say about a spinner: whether they mark one, and how large it is. -/
namespace SpinnerMarkup.Spinner

open Text

/-- The token every spinner carries. -/
def marker : Text := ['a', 'n', 'i', 'm', 'a', 't', 'e', '-', 's', 'p', 'i', 'n']

/-- The beginnings of a size token: a height wins over a size, a size over a width. -/
def sizeKinds : List Text := [['h', '-'], ['s', 'i', 'z', 'e', '-'], ['w', '-']]

/-- The number of a size token of the given kind. Responsive or arbitrary values have none. -/
def sizeOf? (kind token : Text) : Option Nat := (after? kind token).bind decimal?

/-- The size of a spinner: the first kind that has a numeric token, and its first such token. -/
def size? (tokens : List Text) : Option Nat :=
  sizeKinds.findSome? fun kind => tokens.findSome? (sizeOf? kind)

end SpinnerMarkup.Spinner
