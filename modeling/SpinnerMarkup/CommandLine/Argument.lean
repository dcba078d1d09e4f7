import SpinnerMarkup.Text.Terminal

/-! Arguments of a command line by their looks, and what can be wrong with them. -/
namespace SpinnerMarkup.CommandLine

/-- What an argument looks like. -/
inductive Argument where
  /-- Two dashes: everything behind them is a word. -/
  | ending
  /-- A name behind two dashes, with the text behind an equals sign. -/
  | long (name : Text) (value : Option Text)
  /-- Letters behind one dash, of which the first is `flag`. -/
  | short (flag : Char)
  /-- Anything else, be it a single dash. -/
  | word
  deriving Repr, DecidableEq

/-- A name and, if there is an equals sign, the text behind it. -/
def splitValue (s : Text) : Text × Option Text :=
  (Text.quoted? '=' s).elim (s, none) fun (name, value) => (name, some value)

def Argument.ofText : Text → Argument
  | ['-', '-'] => .ending
  | '-' :: '-' :: rest => .long (splitValue rest).1 (splitValue rest).2
  | '-' :: c :: _ => .short c
  | _ => .word

inductive UsageError where
  /-- There is no command. -/
  | noCommand
  /-- A word that should be a command. -/
  | unknownCommand (word : Text)
  /-- An argument that nothing takes. -/
  | unexpected (argument : Text)
  /-- A value for something that takes none. -/
  | unexpectedValue (value : Text) (label : Text)
  | missingValue (label : Text)
  | invalidValue (value : Text) (label : Text)
  | repeated (label : Text)
  deriving Repr, DecidableEq

/-- A text between single quotation marks. -/
def marked (t : Text) : Text := Text.singleQuote :: t ++ [Text.singleQuote]

/-- What is shown of a given text, between single quotation marks: it must not steer a terminal. -/
def markedGiven (t : Text) : Text := marked (Text.Terminal.shown t)

/-- What is wrong, in words. Nobody is told that a command is missing: the usage is shown. -/
def UsageError.message? : UsageError → Option Text
  | .noCommand => none
  | .unknownCommand word => some ("unrecognized subcommand ".toList ++ markedGiven word)
  | .unexpected argument =>
    some ("unexpected argument ".toList ++ markedGiven argument ++ " found".toList)
  | .unexpectedValue value label =>
    some ("unexpected value ".toList ++ markedGiven value ++ " for ".toList ++ marked label ++
      " found; no more were expected".toList)
  | .missingValue label =>
    some ("a value is required for ".toList ++ marked label ++ " but none was supplied".toList)
  | .invalidValue value label =>
    some ("invalid value ".toList ++ markedGiven value ++ " for ".toList ++ marked label)
  | .repeated label =>
    some ("the argument ".toList ++ marked label ++ " cannot be used multiple times".toList)

end SpinnerMarkup.CommandLine
