import SpinnerMarkup.Text.Basic

/-! Paths: texts in which slashes separate names.

A path keeps the text it was given. Two paths are the same when their parts are: repeated slashes,
a slash at the end and a dot between slashes say nothing, a leading dot and every double dot do. -/
namespace SpinnerMarkup

/-- A path as it was written. -/
structure Path where
  text : Text
  deriving Repr, DecidableEq

namespace Path

inductive Part where
  /-- The slash that an absolute path begins with. -/
  | root
  /-- A leading dot. -/
  | current
  /-- A double dot. -/
  | parent
  | name (n : Text)
  deriving Repr, DecidableEq

/-- Whether a path begins at the root. -/
def isAbsolute (p : Path) : Bool := p.text.head? == some '/'

/-- The texts between the slashes. -/
def pieces (p : Path) : List Text := Text.split '/' p.text

/-- Whether a text between slashes says nothing. -/
def isEmptyPiece (piece : Text) : Bool := piece.isEmpty || piece == ['.']

/-- The part a text between slashes stands for, unless it says nothing. -/
def partOf (piece : Text) : Part := if piece = ['.', '.'] then .parent else .name piece

/-- The parts of the texts after the first. -/
def bodyParts (pieces : List Text) : List Part :=
  (pieces.filter fun piece => !isEmptyPiece piece).map partOf

def parts (p : Path) : List Part :=
  match p.pieces with
  | [] => []
  | first :: rest =>
    if p.isAbsolute then .root :: bodyParts rest
    else if first = ['.'] then .current :: bodyParts rest
    else bodyParts (first :: rest)

/-- Whether two paths have the same parts. -/
def same (p q : Path) : Bool := p.parts == q.parts

/-- The path `q` taken from `p`: an absolute path stays itself, any other is written behind `p` and
a slash. -/
def join (p q : Path) : Path :=
  if q.isAbsolute then q
  else if p.text.getLast?.all (· == '/') then ⟨p.text ++ q.text⟩
  else ⟨p.text ++ '/' :: q.text⟩

/-- The texts between slashes without those at the end that say nothing; the first is kept. -/
def trimEnd : List Text → List Text
  | [] => []
  | first :: rest => first :: (rest.reverse.dropWhile isEmptyPiece).reverse

/-- The path of the texts between slashes; a single empty text is the root. -/
def ofPieces : List Text → Path
  | [] => ⟨[]⟩
  | [[]] => ⟨['/']⟩
  | pieces => ⟨Text.join ['/'] pieces⟩

/-- The path without its last part. The path of the root, or of nothing, is nothing. -/
def parent (p : Path) : Path :=
  match (trimEnd p.pieces).dropLast with
  | [] => ⟨[]⟩
  | pieces => ofPieces (trimEnd pieces)

/-- Drops one part from the front of the texts after the first. -/
def dropPart? (part : Part) : List Text → Option (List Text)
  | [] => none
  | piece :: rest =>
    if isEmptyPiece piece then dropPart? part rest
    else if partOf piece = part then some rest
    else none

/-- Drops parts from the front of the texts after the first. -/
def dropParts? : List Part → List Text → Option (List Text)
  | [], pieces => some pieces
  | part :: parts, pieces => (dropPart? part pieces).bind (dropParts? parts)

/-- The path that leads from `base` to a path below it: what is left of its text once the parts of
`base` are taken off the front. -/
def from? (p base : Path) : Option Path :=
  match base.parts with
  | [] => some p
  | first :: rest =>
    let left := match first with
      | .root => if p.isAbsolute then some (p.pieces.drop 1) else none
      | .current => if p.pieces.head? = some ['.'] then some (p.pieces.drop 1) else none
      | part =>
        if p.isAbsolute || p.pieces.head? = some ['.'] then none else dropPart? part p.pieces
    (left.bind (dropParts? rest)).map fun pieces =>
      ⟨Text.join ['/'] (((pieces.dropWhile isEmptyPiece).reverse.dropWhile isEmptyPiece).reverse)⟩

/-- The text after the last dot of a name that has something before that dot. -/
def extensionOf? (name : Text) : Option Text :=
  match (name.reverse.dropWhile (· != '.')).drop 1 with
  | [] => none
  | _ => some (name.reverse.takeWhile (· != '.')).reverse

/-- The paths without those that are the same as an earlier one. -/
def dedup (paths : List Path) : List Path :=
  paths.foldl (fun kept p => if kept.any (same p) then kept else kept ++ [p]) []

end Path
end SpinnerMarkup
