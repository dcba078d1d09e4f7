import SpinnerMarkup.Text.Basic

/-! Where a YAML reader stands: the text ahead with its line and column, and the classes of
characters that YAML tells apart.

A text is taken in by pieces of at most 16384 bytes. A character that may not occur spoils its piece
and what follows, but nothing before: readers that look no further never learn of it. So every
reader says how far it looks, by `Cursor.sees`. -/
namespace SpinnerMarkup.Yaml

open Text

/-! ### Characters -/

/-- The characters that end a line. -/
def isBreak (c : Char) : Bool :=
  inRanges [(0x0A, 0x0A), (0x0D, 0x0D), (0x85, 0x85), (0x2028, 0x2029)] c

/-- A space, a tab or the end of a line. -/
def isBlankOrBreak (c : Char) : Bool := isSpace c || isBreak c

/-- Whether the end of the text or the end of a line follows. -/
def endsLine (c : Option Char) : Bool := c.all isBreak

/-- Whether the end of the text, a space, a tab or the end of a line follows. -/
def endsWord (c : Option Char) : Bool := c.all isBlankOrBreak

/-- The characters of anchors, directive names and tag handles. -/
def isNameChar (c : Char) : Bool :=
  inRanges [(0x30, 0x39), (0x41, 0x5A), (0x5F, 0x5F), (0x61, 0x7A), (0x2D, 0x2D)] c

def hexValue? (c : Char) : Option Nat :=
  let n := c.toNat
  if 48 ≤ n ∧ n ≤ 57 then some (n - 48)
  else if 65 ≤ n ∧ n ≤ 70 then some (n - 55)
  else if 97 ≤ n ∧ n ≤ 102 then some (n - 87)
  else none

def hexNumber? (s : Text) : Option Nat :=
  s.foldl (fun n? c => n?.bind fun n => (hexValue? c).map (16 * n + ·)) (some 0)

/-- Whether a character may occur in a YAML text at all. -/
def isPrintable (c : Char) : Bool :=
  inRanges [(0x20, 0x7E), (0x09, 0x0A), (0x0D, 0x0D), (0x85, 0x85), (0xA0, 0xD7FF),
    (0xE000, 0xFFFD), (0x10000, 0x10FFFF)] c

/-! ### Pieces -/

/-- The number of bytes that are taken in at once. -/
def pieceSize : Nat := 16384

/-- The pieces of a text before the first one with a character that may not occur, and whether they
are all of it. The piece at hand has `room` bytes left; `taken` of it was read, the last character
in front. -/
def clean (room : Nat) (taken : Text) : Text → Text × Bool
  | [] => (taken.reverse, true)
  | c :: s =>
    if c.utf8Size ≤ room then
      if isPrintable c then clean (room - c.utf8Size) (c :: taken) s else ([], false)
    else if isPrintable c then
      let (more, whole) := clean (pieceSize - c.utf8Size) [c] s
      (taken.reverse ++ more, whole)
    else (taken.reverse, false)

/-! ### Places -/

/-- The text ahead, and how many bytes, whole lines and characters of this line are behind. -/
structure Cursor where
  rest : Text
  /-- Whether the text ends behind `rest`; otherwise what follows cannot be taken in. -/
  whole : Bool
  index : Nat
  line : Nat
  column : Nat
  deriving Repr, DecidableEq

namespace Cursor

def start (s : Text) : Cursor :=
  let (rest, whole) := clean pieceSize [] s
  ⟨rest, whole, 0, 0, 0⟩

/-- Whether the next `n` characters, or fewer at the end of the text, can be taken in. -/
def sees (c : Cursor) (n : Nat) : Bool := c.whole || n == 0 || !(c.rest.drop (n - 1)).isEmpty

/-- The character `n` places ahead. -/
def at? (c : Cursor) (n : Nat) : Option Char := c.rest[n]?

def head? (c : Cursor) : Option Char := c.rest.head?

/-- Past `n` characters of the line. -/
def skip (c : Cursor) (n : Nat) : Cursor :=
  { c with
    rest := c.rest.drop n
    index := c.index + byteLength (c.rest.take n)
    column := c.column + n }

/-- The characters of the line that `p` holds of, and the place after them. -/
def span (c : Cursor) (p : Char → Bool) : Text × Cursor :=
  let run := c.rest.takeWhile p
  (run, c.skip run.length)

/-- Past the characters of the line that `p` holds of. -/
def skipWhile (c : Cursor) (p : Char → Bool) : Cursor := (c.span p).2

/-- Past the end of a line, which is two characters long if it is a return and a line feed. The
line end is read as a line feed unless it is one of the two separators. At any other character
nothing is read. -/
def readBreak (c : Cursor) : Text × Cursor :=
  match c.rest with
  | [] => ([], c)
  | d :: s =>
    let next := { c with line := c.line + 1, column := 0 }
    if d = '\r' && s.head? == some '\n' then
      (['\n'], { next with rest := s.drop 1, index := c.index + 2 })
    else if isBreak d then
      (if inRanges [(0x2028, 0x2029)] d then [d] else ['\n'],
        { next with rest := s, index := c.index + d.utf8Size })
    else ([], c)

def skipBreak (c : Cursor) : Cursor := c.readBreak.2

def skipComment (c : Cursor) : Cursor :=
  if c.head? == some '#' then c.skipWhile (!isBreak ·) else c

/-- Past spaces and a comment to the end of the line and past it; none if anything else stands
there. -/
def finishLine? (c : Cursor) : Option Cursor :=
  let c := (c.skipWhile isSpace).skipComment
  if endsLine c.head? && c.sees 2 then some c.skipBreak else none

/-- Whether a document mark, three of a character alone, begins the line here. -/
def atDocumentMark (c : Cursor) : Bool :=
  c.column == 0 &&
    match c.rest with
    | a :: b :: d :: s => (a == '-' || a == '.') && (b == a && (d == a && endsWord s.head?))
    | _ => false

end Cursor
end SpinnerMarkup.Yaml
