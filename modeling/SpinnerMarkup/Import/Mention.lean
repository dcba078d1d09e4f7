import SpinnerMarkup.Error
import SpinnerMarkup.Text.Blank
import SpinnerMarkup.Text.WordChar

/-! Whether a text imports a module.

A text imports a module when one of its lines begins with `import` and names the module between
quotation marks, either directly or after the word `from`. What stands before `from` may run over
several lines, but holds no quotation mark and no semicolon. The module is any text and is compared
as it is.

The search goes by a pattern that is made for the module, and the maker of patterns may refuse to make
one: a module can be too long for it. Which modules it refuses, and in which words, is a parameter
(`Refusals`). -/
namespace SpinnerMarkup.Import

open Text

def keyword : Text := ['i', 'm', 'p', 'o', 'r', 't']

def fromReversed : Text := ['m', 'o', 'r', 'f']

/-- The parts of a text that begin at the start of a line; a line ends at a line feed only. -/
def lineStarts (s : Text) : List Text := s :: tails s
where
  /-- The parts after each line feed. -/
  tails : Text → List Text
    | [] => []
    | c :: s => if c = '\n' then s :: tails s else tails s

/-- What follows `import` in a line that begins with it. -/
def afterKeyword? (line : Text) : Option Text := after? keyword (line.dropWhile isSpace)

/-- Whether a text begins with the module between quotation marks of either kind. -/
def namesModule (module : Text) : Text → Bool
  | [] => false
  | c :: s =>
    isQuote c &&
      match after? module s with
      | some (d :: _) => isQuote d
      | _ => false

/-- What can end the symbols of an import: a semicolon or a quotation mark. -/
def endsSymbols (c : Char) : Bool := c == ';' || isQuote c

/-- Whether a text, blanks at its end apart, ends with the word `from`. -/
def endsWithFrom (s : Text) : Bool :=
  match after? fromReversed (s.reverse.dropWhile isBlank) with
  | none => false
  | some before => !before.head?.any isWordChar

/-- Whether a blank, symbols, `from` and the module follow. -/
def namesAfterFrom (module : Text) : Text → Bool
  | [] => false
  | c :: s =>
    isBlank c && endsWithFrom (s.takeWhile (!endsSymbols ·)) &&
      namesModule module (s.dropWhile (!endsSymbols ·))

/-- Whether a line begins an import of the module. -/
def lineImports (module line : Text) : Bool :=
  match afterKeyword? line with
  | none => false
  | some s => namesAfterFrom module s || namesModule module (s.dropWhile isBlank)

/-- Whether some line of a text begins an import of the module. -/
def importsModule (source module : Text) : Bool := (lineStarts source).any (lineImports module)

/-! ### Patterns that are refused -/

/-- Why the pattern for a module is refused, in words; none for a module that has its pattern. -/
abbrev Refusals := Text → Option Text

/-- Every module has its pattern. -/
def noRefusals : Refusals := fun _ => none

/-- A module has no pattern. -/
def invalidModule (module why : Text) : Error :=
  .general ("Invalid import module '".toList ++ module ++ "': ".toList ++ why)

/-- A result that is worked out with the pattern for a module. -/
def withPattern {α : Type} (refusals : Refusals) (module : Text) (result : α) : Except Error α :=
  match refusals module with
  | none => .ok result
  | some why => .error (invalidModule module why)

/-- Whether a text is recognised as one that imports the module. -/
def recognise (refusals : Refusals) (source module : Text) : Except Error Bool :=
  withPattern refusals module (importsModule source module)

end SpinnerMarkup.Import
