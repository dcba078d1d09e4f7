import SpinnerMarkup.Import.Declaration
import SpinnerMarkup.Import.Prologue
import SpinnerMarkup.Import.Statement

/-! Adding an import to a text.

The declaration goes on a line of its own after the line of the last import statement; in a text
without one, below the prologue. It ends with the line end that the text uses. -/
namespace SpinnerMarkup.Import

open Text

/-- A place in a text: what stands before it and what follows. -/
structure Place where
  before : Text
  after : Text
  deriving Repr, DecidableEq

/-- The place after the first line feed, or at the end. -/
def afterLine (s : Text) : Place :=
  match s.dropWhile (· != '\n') with
  | [] => ⟨s, []⟩
  | c :: rest => ⟨s.takeWhile (· != '\n') ++ [c], rest⟩

/-- Whether a piece is a character outside every occurrence. -/
def isPlain {α : Type} : Piece α → Bool
  | .plain _ => true
  | .found _ => false

/-- The place right after the last statement. -/
def afterLastStatement? (source : Text) : Option Place :=
  let pieces := (statementPattern.scan source).reverse
  match pieces.dropWhile isPlain with
  | [] => none
  | found =>
    some ⟨found.reverse.flatMap statementPattern.pieceSource,
      (pieces.takeWhile isPlain).reverse.flatMap statementPattern.pieceSource⟩

/-- Where a declaration goes. What stands after the last statement on its line stays above. -/
def place (source : Text) : Place :=
  match afterLastStatement? source with
  | some last =>
    let line := afterLine last.after
    ⟨last.before ++ line.before, line.after⟩
  | none =>
    let before := prologue source
    ⟨before, source.drop before.length⟩

/-- The line end a text uses: the two-character one if it occurs. -/
def lineEnd (source : Text) : Text :=
  if Text.contains ['\r', '\n'] source then ['\r', '\n'] else ['\n']

/-- A line inserted at a place, on a line of its own. -/
def Place.insertLine (p : Place) (eol line : Text) : Text :=
  let separator := if p.before.getLast?.all (· == '\n') then [] else eol
  p.before ++ separator ++ line ++ eol ++ p.after

/-- The text with the declaration that imports `symbols` from `module`; none when some line of it
already imports the module. -/
def add? (source module : Text) (symbols : List Text) : Option Text :=
  if importsModule source module then none
  else some ((place source).insertLine (lineEnd source) (declaration module symbols))

/-- The text with the declaration, if the module has its pattern. -/
def add (refusals : Refusals) (source module : Text) (symbols : List Text) :
    Except Error (Option Text) :=
  withPattern refusals module (add? source module symbols)

end SpinnerMarkup.Import
