import SpinnerMarkup.Import.Mention
import SpinnerMarkup.Text.Pattern

/-! Import statements in a text.

A statement begins a line with `import` and a blank, a brace or a star. It ends with the first
quoted specifier that is not empty, blanks and a semicolon included if they follow. Before that it
may hold comments to the end of a line, quoted strings within a line and any character that cannot
end an import clause. -/
namespace SpinnerMarkup.Import

open Text

/-- Characters that no import clause holds by themselves. -/
def isForbidden (c : Char) : Bool :=
  c == ';' || (isQuote c || (c == backtick || (c == '(' || (c == ')' || (c == '<' || (c == '>' ||
    (c == '=' || c == '/')))))))

def inSpecifier (c : Char) : Bool := !(isQuote c || c == '\n')

/-- A quoted specifier that is not empty at the front of a text, with the spaces and the semicolon
after it. -/
def specifier? : Text → Option Text
  | [] => none
  | opening :: s =>
    if isQuote opening && (s.head?.any inSpecifier) then
      match s.dropWhile inSpecifier with
      | [] => none
      | closing :: rest =>
        if isQuote closing then
          let spaces := rest.takeWhile isSpace
          let semicolon := (rest.dropWhile isSpace).head?.filter (· == ';')
          some (opening :: s.takeWhile inSpecifier ++ closing :: spaces ++ semicolon.toList)
        else none
    else none

/-- Where the walk through a clause stands. -/
inductive ClauseState where
  /-- Between two items. -/
  | clause
  /-- After a slash. -/
  | slash
  /-- Inside a comment to the end of the line. -/
  | comment
  /-- Inside a string opened by the mark. -/
  | string (mark : Char)
  deriving Repr, DecidableEq

/-- The state after one more character, if a clause may go on with it. -/
def ClauseState.next? : ClauseState → Char → Option ClauseState
  | .clause, c =>
    if c = '/' then some .slash
    else if isQuote c then some (.string c)
    else if isForbidden c then none
    else some .clause
  | .slash, c => if c = '/' then some .comment else if isQuote c then none else some .clause
  | .comment, c => if c = '\n' then some .clause else some .comment
  | .string mark, c =>
    if c = mark then some .clause else if c = '\n' then none else some (.string mark)

/-- The rest of a statement up to its first specifier. A specifier is looked for between items
only. -/
def clause? (state : ClauseState) : Text → Option Text
  | [] => none
  | c :: s =>
    match if state = .clause then specifier? (c :: s) else none with
    | some t => some t
    | none =>
      match state.next? c with
      | none => none
      | some state => (clause? state s).map (c :: ·)

/-- What may follow the word `import` in a statement. -/
def opensClause (c : Char) : Bool := isBlank c || (c == '\x7b' || c == '*')

/-- The statement at the front of a text, which stands at the start of a line. -/
def statement? (line : Text) : Option Text :=
  match afterKeyword? line with
  | none => none
  | some [] => none
  | some (c :: s) =>
    if opensClause c then
      (clause? .clause s).map fun t => line.takeWhile isSpace ++ keyword ++ c :: t
    else none

/-- Whether a position stands at the start of a line, given the character before it. -/
def atLineStart (before : Option Char) : Bool := before.all (· == '\n')

/-! ### A statement is the front of the text it was read from -/

theorem specifier?_front {s t : Text} (h : specifier? s = some t) : ∃ r, s = t ++ r := by
  cases s with
  | nil => cases h
  | cons opening s =>
    rw [specifier?] at h
    split at h
    · split at h
      · cases h
      · next closing rest hd =>
        split at h
        · obtain rfl := Option.some.inj h
          have hs := List.takeWhile_append_dropWhile (p := inSpecifier) (l := s)
          rw [hd, ← List.takeWhile_append_dropWhile (p := isSpace) (l := rest)] at hs
          conv => enter [1, r]; lhs; rw [← hs]
          cases hr : rest.dropWhile isSpace with
          | nil => exact ⟨[], by simp⟩
          | cons d r =>
            by_cases hd : (d == ';') = true
            · exact ⟨r, by simp [Option.filter, hd]⟩
            · exact ⟨d :: r, by simp [Option.filter, hd]⟩
        · cases h
    · cases h

theorem clause?_front {state : ClauseState} {s t : Text} (h : clause? state s = some t) :
    ∃ r, s = t ++ r := by
  induction s generalizing state t with
  | nil => cases h
  | cons c s ih =>
    rw [clause?] at h
    split at h
    · next u hu =>
      obtain rfl := Option.some.inj h
      split at hu
      · exact specifier?_front hu
      · cases hu
    · split at h
      · cases h
      · obtain ⟨u, hu, rfl⟩ := Option.map_eq_some_iff.1 h
        obtain ⟨r, rfl⟩ := ih hu
        exact ⟨r, rfl⟩

theorem afterKeyword?_split {line s : Text} (h : afterKeyword? line = some s) :
    line = line.takeWhile isSpace ++ keyword ++ s :=
  after?_dropWhile_split h

/-- **A statement is the front of the text it was read from.** -/
theorem statement?_front {line t : Text} (h : statement? line = some t) : ∃ r, line = t ++ r := by
  rw [statement?] at h
  split at h
  · cases h
  · cases h
  · next c s hs =>
    split at h
    · obtain ⟨u, hu, rfl⟩ := Option.map_eq_some_iff.1 h
      obtain ⟨r, rfl⟩ := clause?_front hu
      exact ⟨r, (afterKeyword?_split hs).trans (by simp)⟩
    · cases h

theorem statement?_ne_nil {line t : Text} (h : statement? line = some t) : t ≠ [] := by
  rw [statement?] at h
  split at h
  · cases h
  · cases h
  · split at h
    · obtain ⟨u, -, rfl⟩ := Option.map_eq_some_iff.1 h
      simp [keyword]
    · cases h

/-- Statements as a pattern: they stand at the start of a line. -/
def statementPattern : Pattern Text where
  read? before s := if atLineStart before then statement? s else none
  source := id
  source_front h := by
    split at h
    · exact statement?_front h
    · cases h
  source_ne_nil h := by
    split at h
    · exact statement?_ne_nil h
    · cases h

end SpinnerMarkup.Import
