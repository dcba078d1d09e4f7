import SpinnerMarkup.Text.Basic

/-! The prologue of a text: the blank lines, comment lines and directives it begins with.

A comment line ends with its comment; a block comment runs up to the first close mark that ends its
line. A directive is a quoted `use ...` alone on its line, with or without a semicolon, and may end
the text. -/
namespace SpinnerMarkup.Import

open Text

/-- Spaces and the end of a line at the front of a text. -/
def lineBreak? (s : Text) : Option Text :=
  match after? ['\n'] (s.dropWhile isSpace) with
  | some _ => some (s.takeWhile isSpace ++ ['\n'])
  | none =>
    match after? ['\r', '\n'] (s.dropWhile isSpace) with
    | some _ => some (s.takeWhile isSpace ++ ['\r', '\n'])
    | none => none

/-- The rest of a block comment up to the first close mark that ends its line, with the line end. -/
def blockEnd? : Text → Option Text
  | [] => none
  | c :: s =>
    match (after? ['*', '/'] (c :: s)).bind lineBreak? with
    | some t => some (['*', '/'] ++ t)
    | none => (blockEnd? s).map (c :: ·)

/-- A blank line or a comment with the rest of its line. -/
def commentLine? (s : Text) : Option Text :=
  match after? ['/', '/'] (s.dropWhile isSpace) with
  | some t =>
    match t.dropWhile (· != '\n') with
    | [] => none
    | _ => some (s.takeWhile isSpace ++ ['/', '/'] ++ t.takeWhile (· != '\n') ++ ['\n'])
  | none =>
    match after? ['/', '*'] (s.dropWhile isSpace) with
    | some t => (blockEnd? t).map (s.takeWhile isSpace ++ ['/', '*'] ++ ·)
    | none => lineBreak? s

/-- What may follow a directive: spaces and the end of its line or of the text. -/
def directiveEnd? (s : Text) : Option Text :=
  match lineBreak? s with
  | some t => some t
  | none => if s.all isSpace then some s else none

/-- A quoted `use ...` within one line. -/
def useString? : Text → Option Text
  | [] => none
  | mark :: s =>
    if isQuote mark then
      match after? ['u', 's', 'e', ' '] s with
      | none => none
      | some t =>
        match quoted? mark t with
        | none => none
        | some (value, _) =>
          if value.elem '\n' then none
          else some (mark :: (['u', 's', 'e', ' '] ++ value ++ [mark]))
    else none

/-- A directive with the rest of its line. -/
def directiveLine? (s : Text) : Option Text :=
  match useString? (s.dropWhile isSpace) with
  | none => none
  | some use =>
    let t := (s.dropWhile isSpace).drop use.length
    let spaces := t.takeWhile isSpace
    match after? [';'] (t.dropWhile isSpace) with
    | some u => (directiveEnd? u).map (s.takeWhile isSpace ++ use ++ spaces ++ [';'] ++ ·)
    | none => (directiveEnd? t).map (s.takeWhile isSpace ++ use ++ ·)

def prologueLine? (s : Text) : Option Text :=
  match commentLine? s with
  | some line => some line
  | none => directiveLine? s

/-- The prologue of a text whose first `skip` characters belong to a prologue line already read. -/
def prologueFrom (skip : Nat) : Text → Text
  | [] => []
  | c :: s =>
    match skip with
    | skip + 1 => c :: prologueFrom skip s
    | 0 =>
      match prologueLine? (c :: s) with
      | some line => c :: prologueFrom (line.length - 1) s
      | none => []

def prologue (s : Text) : Text := prologueFrom 0 s

/-- The prologue is the front of the text. -/
theorem prologueFrom_front (skip : Nat) (s : Text) : ∃ r, s = prologueFrom skip s ++ r := by
  induction s generalizing skip with
  | nil => exact ⟨[], rfl⟩
  | cons c s ih =>
    cases skip with
    | succ skip =>
      obtain ⟨r, hr⟩ := ih skip
      exact ⟨r, by rw [prologueFrom, List.cons_append, ← hr]⟩
    | zero =>
      rw [prologueFrom]
      split
      · next line _ =>
        obtain ⟨r, hr⟩ := ih (line.length - 1)
        exact ⟨r, by rw [List.cons_append, ← hr]⟩
      · exact ⟨c :: s, rfl⟩

end SpinnerMarkup.Import
