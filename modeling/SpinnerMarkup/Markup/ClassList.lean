import SpinnerMarkup.Markup.Element

/-! The class list of an element.

The class list is the first static `className` value in the attribute text: a plain string, or a
string or a template without interpolation in braces. Any other expression is no class list. -/
namespace SpinnerMarkup.ClassList

open Text

/-- A string or an uninterpolated template, then blanks and the closing brace. -/
def braced? (s : Text) : Option Text :=
  match s with
  | [] => none
  | mark :: t =>
    if isQuote mark || mark == backtick then
      match quoted? mark t with
      | none => none
      | some (value, rest) =>
        if mark == backtick && value.elem '$' then none
        else
          match rest.dropWhile isBlank with
          | '\x7d' :: _ => some value
          | _ => none
    else none

/-- The value of the literal at the front of a text. -/
def literal? (s : Text) : Option Text :=
  match s with
  | [] => none
  | c :: t =>
    if isQuote c then (quoted? c t).map Prod.fst
    else if c = '\x7b' then braced? (t.dropWhile isBlank)
    else none

/-- The value of a `className` assignment at the front of a text. -/
def assignment? (s : Text) : Option Text :=
  match after? ['c', 'l', 'a', 's', 's', 'N', 'a', 'm', 'e'] s with
  | none => none
  | some t =>
    match t.dropWhile isBlank with
    | '=' :: u => literal? (u.dropWhile isBlank)
    | _ => none

/-- The first assignment that follows a blank. -/
def afterBlank? : Text → Option Text
  | [] => none
  | c :: s =>
    if isBlank c then
      match assignment? s with
      | some value => some value
      | none => afterBlank? s
    else afterBlank? s

/-- The first assignment at the start of the attributes or after a blank. -/
def value? (attributes : Text) : Option Text :=
  match assignment? attributes with
  | some value => some value
  | none => afterBlank? attributes

/-- The class tokens that an attribute text assigns statically. -/
def tokens? (attributes : Text) : Option (List Text) := (value? attributes).map words

end SpinnerMarkup.ClassList
