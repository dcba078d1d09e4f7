import SpinnerMarkup.Text.Basic

/-! Leftmost, non-overlapping occurrences of a pattern.

A pattern reads at most one occurrence at the front of a text, knowing the character before it. A
scan walks the text from left to right, reports the occurrence at the first position that has one
and goes on after its end; every other character is a piece of its own. `flatMap_source_scan`: the
pieces of a scan make up the text. -/
namespace SpinnerMarkup

/-- What may be looked for in a text. -/
structure Pattern (α : Type) where
  /-- The occurrence at the front of a text, given the character before it. -/
  read? : Option Char → Text → Option α
  /-- The text of an occurrence. -/
  source : α → Text
  /-- An occurrence is the front of the text it was read from. -/
  source_front : ∀ {p s a}, read? p s = some a → ∃ r, s = source a ++ r
  /-- An occurrence is not empty. -/
  source_ne_nil : ∀ {p s a}, read? p s = some a → source a ≠ []

/-- A character outside every occurrence, or an occurrence. -/
inductive Piece (α : Type) where
  | plain (c : Char)
  | found (a : α)
  deriving Repr, DecidableEq

def Piece.found? {α : Type} : Piece α → Option α
  | .plain _ => none
  | .found a => some a

namespace Pattern

variable {α : Type} (P : Pattern α)

def pieceSource : Piece α → Text
  | .plain c => [c]
  | .found a => P.source a

/-- The pieces of a text whose first `skip` characters belong to an occurrence already reported. -/
def scanFrom (skip : Nat) (before : Option Char) : Text → List (Piece α)
  | [] => []
  | c :: s =>
    match skip with
    | skip + 1 => scanFrom skip (some c) s
    | 0 =>
      match P.read? before (c :: s) with
      | some a => .found a :: scanFrom ((P.source a).length - 1) (some c) s
      | none => .plain c :: scanFrom 0 (some c) s

def scan (s : Text) : List (Piece α) := P.scanFrom 0 none s

/-- The occurrences of a text, from left to right. -/
def occurrences (s : Text) : List α := (P.scan s).filterMap Piece.found?

theorem flatMap_source_scanFrom (skip : Nat) (before : Option Char) (s : Text) :
    (P.scanFrom skip before s).flatMap P.pieceSource = s.drop skip := by
  induction s generalizing skip before with
  | nil => simp [scanFrom]
  | cons c s ih =>
    cases skip with
    | succ skip => simpa [scanFrom] using ih skip (some c)
    | zero =>
      rw [scanFrom]
      split
      · next a h =>
        obtain ⟨r, hr⟩ := P.source_front h
        have hne := P.source_ne_nil h
        cases hs : P.source a with
        | nil => exact absurd hs hne
        | cons d w =>
          obtain ⟨rfl, rfl⟩ : c = d ∧ s = w ++ r := by simpa [hs] using hr
          simp [pieceSource, hs, ih]
      · next h => simp [pieceSource, ih]

/-- **The pieces of a scan make up the text.** -/
theorem flatMap_source_scan (s : Text) : (P.scan s).flatMap P.pieceSource = s := by
  simpa [scan] using P.flatMap_source_scanFrom 0 none s

end Pattern
end SpinnerMarkup
