import SpinnerMarkup.Text.Basic

/-! JSON values and their written form.

Lists and objects are written one item a line, two spaces deeper than what holds them; an empty one
is written as two marks. In a string the quotation mark, the backslash and the control characters
below the space are escaped, everything else stands as it is. -/
namespace SpinnerMarkup

/-- A JSON value; numbers are natural, fields keep their order. -/
inductive Json where
  | null
  | bool (b : Bool)
  | num (n : Nat)
  | str (s : Text)
  | arr (items : List Json)
  | obj (fields : List (Text × Json))
  deriving Repr

namespace Json

def hexDigit (n : Nat) : Char := if n < 10 then Char.ofNat (48 + n) else Char.ofNat (87 + n)

def escape (c : Char) : Text :=
  if c = Text.doubleQuote || c = '\\' then ['\\', c]
  else if c = '\x08' then ['\\', 'b']
  else if c = '\x0c' then ['\\', 'f']
  else if c = '\n' then ['\\', 'n']
  else if c = '\r' then ['\\', 'r']
  else if c = '\t' then ['\\', 't']
  else if c.toNat < 32 then
    ['\\', 'u', '0', '0', hexDigit (c.toNat / 16), hexDigit (c.toNat % 16)]
  else [c]

def quote (s : Text) : Text := Text.doubleQuote :: s.flatMap escape ++ [Text.doubleQuote]

def indent (depth : Nat) : Text := List.replicate (2 * depth) ' '

mutual

/-- The written form of a value that stands at the given depth. -/
def renderAt (depth : Nat) : Json → Text
  | .null => ['n', 'u', 'l', 'l']
  | .bool true => ['t', 'r', 'u', 'e']
  | .bool false => ['f', 'a', 'l', 's', 'e']
  | .num n => Text.ofNat n
  | .str s => quote s
  | .arr [] => ['[', ']']
  | .arr (item :: items) =>
    ['[', '\n'] ++ renderItems (depth + 1) (item :: items) ++ indent depth ++ [']']
  | .obj [] => ['\x7b', '\x7d']
  | .obj (field :: fields) =>
    ['\x7b', '\n'] ++ renderFields (depth + 1) (field :: fields) ++ indent depth ++ ['\x7d']

/-- Items on lines of their own. -/
def renderItems (depth : Nat) : List Json → Text
  | [] => []
  | item :: items =>
    let comma := if items.isEmpty then [] else [',']
    indent depth ++ renderAt depth item ++ comma ++ ['\n'] ++ renderItems depth items

/-- Fields on lines of their own. -/
def renderFields (depth : Nat) : List (Text × Json) → Text
  | [] => []
  | (name, value) :: fields =>
    let comma := if fields.isEmpty then [] else [',']
    indent depth ++ quote name ++ [':', ' '] ++ renderAt depth value ++ comma ++ ['\n'] ++
      renderFields depth fields

end

def render (j : Json) : Text := renderAt 0 j

end Json
end SpinnerMarkup
