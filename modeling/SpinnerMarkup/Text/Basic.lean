/-! Texts and the small readers every recogniser is made of.

A text is the list of its characters. A reader looks only at the front of a text: `after?` drops a
fixed beginning, `quoted?` reads up to a closing mark. `after?_eq_some_iff` and `quoted?_split` say
that what a reader takes and what it leaves make up the text it was given. A text is split at every
occurrence of a character (`join_split`), and pieces without that character come back (`split_join`). -/
namespace SpinnerMarkup

/-- A text is the list of its characters. -/
abbrev Text := List Char

namespace Text

def doubleQuote : Char := '\x22'

def singleQuote : Char := '\x27'

/-- The mark that encloses a template literal. -/
def backtick : Char := '\x60'

/-- The two marks that open a string. -/
def isQuote (c : Char) : Bool := c == doubleQuote || c == singleQuote

/-- A space or a tab: what may indent a line. -/
def isSpace (c : Char) : Bool := c == ' ' || c == '\t'

/-- A decimal digit; no other script counts. -/
def isDigit (c : Char) : Bool := '0' ≤ c && c ≤ '9'

/-- Whether a character's number lies in one of the ranges, both ends included. -/
def inRanges (ranges : List (Nat × Nat)) (c : Char) : Bool :=
  ranges.any fun r => decide (r.1 ≤ c.toNat) && decide (c.toNat ≤ r.2)

/-- What follows `start` in a text that begins with it. -/
def after? : Text → Text → Option Text
  | [], s => some s
  | _ :: _, [] => none
  | a :: start, c :: s => if a = c then after? start s else none

/-- **A text that begins with `start` is `start` and what follows it.** -/
theorem after?_eq_some_iff {start s r : Text} : after? start s = some r ↔ s = start ++ r := by
  induction start generalizing s with
  | nil => simp [after?]
  | cons a start ih =>
    cases s with
    | nil => simp [after?]
    | cons c s =>
      by_cases h : a = c
      · simp [after?, h, ih]
      · simp [after?, h, Ne.symm h]

/-- Characters that are passed over, a fixed text and what follows it make up the text. -/
theorem after?_dropWhile_split {p : Char → Bool} {mark s r : Text}
    (h : after? mark (s.dropWhile p) = some r) : s = s.takeWhile p ++ mark ++ r := by
  rw [List.append_assoc, ← after?_eq_some_iff.1 h, List.takeWhile_append_dropWhile]

theorem takeWhile_stop {p : Char → Bool} {b : Text} (hb : ∀ c ∈ b, p c = true) {c : Char}
    (hc : p c = false) (r : Text) : (b ++ c :: r).takeWhile p = b := by
  rw [List.takeWhile_append_of_pos hb, List.takeWhile_cons_of_neg (by simp [hc]), List.append_nil]

theorem dropWhile_stop {p : Char → Bool} {b : Text} (hb : ∀ c ∈ b, p c = true) {c : Char}
    (hc : p c = false) (r : Text) : (b ++ c :: r).dropWhile p = c :: r := by
  rw [List.dropWhile_append_of_pos hb, List.dropWhile_cons_of_neg (by simp [hc])]

/-- What stands before the first `mark`, the mark and what follows it make up the text. -/
theorem dropWhile_ne_split {mark c : Char} {s r : Text} (h : s.dropWhile (· != mark) = c :: r) :
    c = mark ∧ s = s.takeWhile (· != mark) ++ mark :: r := by
  have hc : c = mark := by
    have hhead := List.head?_dropWhile_not (· != mark) s
    simpa [h] using hhead
  subst hc
  exact ⟨rfl, by rw [← h, List.takeWhile_append_dropWhile]⟩

/-- A text that does not hold a mark begins another exactly when it begins what stands before the mark. -/
theorem prefix_append_mark_iff {w x r : Text} {mark : Char} (h : mark ∉ w) :
    w <+: x ++ mark :: r ↔ w <+: x := by
  refine ⟨fun hw => ?_, fun hw => hw.trans (List.prefix_append x _)⟩
  obtain ⟨z, hz⟩ := hw
  rcases List.append_eq_append_iff.1 hz with ⟨y, rfl, -⟩ | ⟨y, rfl, hy⟩
  · exact List.prefix_append w y
  · cases y with
    | nil => simp
    | cons d y =>
      obtain ⟨rfl, -⟩ := List.cons.inj hy
      exact absurd (by simp) h

/-- A text that does not hold a mark stands on one side of it. -/
theorem infix_append_mark_iff {w x r : Text} {mark : Char} (h : mark ∉ w) :
    w <:+: x ++ mark :: r ↔ w <:+: x ∨ w <:+: r := by
  induction x with
  | nil =>
    have hfront : w <+: mark :: r ↔ w <+: [] := prefix_append_mark_iff (x := []) h
    rw [List.nil_append, List.infix_cons_iff, hfront, List.prefix_nil, List.infix_nil]
  | cons c x ih =>
    have hfront : w <+: c :: (x ++ mark :: r) ↔ w <+: c :: x := prefix_append_mark_iff (x := c :: x) h
    rw [List.cons_append, List.infix_cons_iff, hfront, ih, List.infix_cons_iff, or_assoc]

/-- The characters before the first `mark` and what follows that mark; none without a mark. -/
def quoted? (mark : Char) (s : Text) : Option (Text × Text) :=
  match s.dropWhile (· != mark) with
  | [] => none
  | _ :: rest => some (s.takeWhile (· != mark), rest)

/-- What is quoted, the mark and the rest make up the text. -/
theorem quoted?_split {mark : Char} {s v r : Text} (h : quoted? mark s = some (v, r)) :
    s = v ++ mark :: r := by
  unfold quoted? at h
  split at h
  · simp at h
  · next c rest hd =>
    obtain ⟨rfl, rfl⟩ : s.takeWhile (· != mark) = v ∧ rest = r := by simpa using h
    exact (dropWhile_ne_split hd).2

/-- **What is quoted goes up to the first mark.** -/
theorem quoted?_eq_some_iff {mark : Char} {s v r : Text} :
    quoted? mark s = some (v, r) ↔ s = v ++ mark :: r ∧ mark ∉ v := by
  constructor
  · intro h
    refine ⟨quoted?_split h, ?_⟩
    unfold quoted? at h
    split at h
    · cases h
    · obtain ⟨rfl, -⟩ := Prod.mk.inj (Option.some.inj h)
      intro hmem
      have hne := List.all_eq_true.1 (List.all_takeWhile (p := (· != mark)) (l := s)) mark hmem
      simp at hne
  · rintro ⟨rfl, hv⟩
    have hv' : ∀ c ∈ v, (c != mark) = true := fun c hc => by
      simpa using fun heq : c = mark => hv (heq ▸ hc)
    have hmark : (mark != mark) = false := by simp
    rw [quoted?, dropWhile_stop hv' hmark, takeWhile_stop hv' hmark]

/-- The whole texts between the occurrences of a character, the empty ones too. -/
def split (mark : Char) : Text → List Text
  | [] => [[]]
  | c :: s =>
    if c = mark then [] :: split mark s
    else
      match split mark s with
      | [] => [[c]]
      | piece :: pieces => (c :: piece) :: pieces

theorem split_ne_nil (mark : Char) (s : Text) : split mark s ≠ [] := by
  cases s with
  | nil => simp [split]
  | cons c s =>
    rw [split]
    split
    · simp
    · split <;> simp

theorem split_cons_of_ne {mark c : Char} (h : c ≠ mark) (s : Text) :
    ∃ piece pieces, split mark s = piece :: pieces ∧
      split mark (c :: s) = (c :: piece) :: pieces := by
  obtain ⟨piece, pieces, hs⟩ := List.exists_cons_of_ne_nil (split_ne_nil mark s)
  exact ⟨piece, pieces, hs, by rw [split, if_neg h, hs]⟩

/-- **A text splits at an occurrence of the character.** -/
theorem split_append (mark : Char) (a s : Text) :
    split mark (a ++ mark :: s) = split mark a ++ split mark s := by
  induction a with
  | nil => simp [split]
  | cons c a ih =>
    by_cases hc : c = mark
    · subst hc
      rw [List.cons_append, split, if_pos rfl, ih, split, if_pos rfl, List.cons_append]
    · obtain ⟨piece, pieces, ha, hca⟩ := split_cons_of_ne hc a
      rw [List.cons_append, split, if_neg hc, ih, hca, ha]
      rfl

theorem split_of_not_mem {mark : Char} {a : Text} (h : mark ∉ a) : split mark a = [a] := by
  induction a with
  | nil => rfl
  | cons c a ih =>
    obtain ⟨hc, ha⟩ : mark ≠ c ∧ mark ∉ a := by simpa using h
    rw [split, if_neg hc.symm, ih ha]

/-- No piece holds the character. -/
theorem not_mem_of_mem_split {mark : Char} {s piece : Text} (h : piece ∈ split mark s) :
    mark ∉ piece := by
  induction s generalizing piece with
  | nil =>
    obtain rfl := List.mem_singleton.1 h
    exact List.not_mem_nil
  | cons c s ih =>
    by_cases hc : c = mark
    · rw [split, if_pos hc, List.mem_cons] at h
      rcases h with rfl | h
      · exact List.not_mem_nil
      · exact ih h
    · obtain ⟨first, rest, hs, hcs⟩ := split_cons_of_ne hc s
      rw [hs] at ih
      rw [hcs, List.mem_cons] at h
      rcases h with rfl | h
      · rw [List.mem_cons, not_or]
        exact ⟨Ne.symm hc, ih (List.mem_cons_self ..)⟩
      · exact ih (List.mem_cons_of_mem first h)

/-- The first line of a text, without the line feed it ends with and a return right before that. -/
def firstLine (s : Text) : Text :=
  let line := s.takeWhile (· != '\n')
  if line.length < s.length && line.getLast? == some '\r' then line.dropLast else line

/-- Pieces joined by a text between neighbours. -/
def join (between : Text) : List Text → Text
  | [] => []
  | [t] => t
  | t :: ts => t ++ between ++ join between ts

theorem join_cons_cons (between t t' : Text) (ts : List Text) :
    join between (t :: t' :: ts) = t ++ between ++ join between (t' :: ts) := rfl

/-- Pieces without the character come back when they are joined by it. -/
theorem split_join {mark : Char} {pieces : List Text} (hne : pieces ≠ [])
    (h : ∀ piece ∈ pieces, mark ∉ piece) : split mark (join [mark] pieces) = pieces := by
  induction pieces with
  | nil => exact absurd rfl hne
  | cons piece pieces ih =>
    obtain ⟨hpiece, hpieces⟩ := List.forall_mem_cons.1 h
    cases pieces with
    | nil => exact split_of_not_mem hpiece
    | cons next pieces =>
      have hjoin : join [mark] (piece :: next :: pieces) =
          piece ++ mark :: join [mark] (next :: pieces) := by simp [join_cons_cons]
      rw [hjoin, split_append, split_of_not_mem hpiece, ih (List.cons_ne_nil next pieces) hpieces,
        List.singleton_append]

/-- The pieces of a text joined again are the text. -/
theorem join_split (mark : Char) (s : Text) : join [mark] (split mark s) = s := by
  induction s with
  | nil => rfl
  | cons c s ih =>
    by_cases hc : c = mark
    · obtain ⟨piece, pieces, hs⟩ := List.exists_cons_of_ne_nil (split_ne_nil mark s)
      rw [hs] at ih
      rw [split, if_pos hc, hs, join_cons_cons, ih, hc]
      rfl
    · obtain ⟨piece, pieces, hs, hcs⟩ := split_cons_of_ne hc s
      rw [hs] at ih
      rw [hcs, ← ih]
      cases pieces <;> rfl

def contains (part : Text) : Text → Bool
  | [] => (after? part []).isSome
  | c :: s => (after? part (c :: s)).isSome || contains part s

/-- The length of a text in UTF-8. -/
def byteLength (s : Text) : Nat := s.foldr (fun c n => c.utf8Size + n) 0

/-- A number in decimal, without leading zeros. -/
def ofNat (n : Nat) : Text := Nat.toDigits 10 n

end Text
end SpinnerMarkup
