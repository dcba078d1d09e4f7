import SpinnerMarkup.Text.Basic

/-! Blank characters and words.

Blank is the Unicode property White_Space: twenty-five characters, among them the no-break space
and the ideographic space, but no zero-width character. A text splits into words at its blanks;
`words_blank` and `words_append_blank` fix the splitting. -/
namespace SpinnerMarkup.Text

/-- The ranges of the Unicode property White_Space. -/
def blankRanges : List (Nat × Nat) :=
  [(9, 13), (0x20, 0x20), (0x85, 0x85), (0xA0, 0xA0), (0x1680, 0x1680), (0x2000, 0x200A),
   (0x2028, 0x2029), (0x202F, 0x202F), (0x205F, 0x205F), (0x3000, 0x3000)]

/-- The characters with the Unicode property White_Space. -/
def isBlank (c : Char) : Bool := inRanges blankRanges c

/-- Puts a character in front of the first word. -/
def growFirst (c : Char) : List Text → List Text
  | [] => [[c]]
  | w :: ws => (c :: w) :: ws

/-- The maximal blank-free parts of a text, in order. -/
def words : Text → List Text
  | [] => []
  | c :: s =>
    if isBlank c then words s
    else if s.head?.all isBlank then [c] :: words s
    else growFirst c (words s)

/-- A blank in front changes no word. -/
theorem words_blank {c : Char} (s : Text) (h : isBlank c = true) : words (c :: s) = words s := by
  rw [words, if_pos h]

/-- A blank ends a word. -/
theorem words_append_blank {w : Text} {b : Char} (s : Text) (hw : w ≠ [])
    (hn : ∀ c ∈ w, isBlank c = false) (hb : isBlank b = true) :
    words (w ++ b :: s) = w :: words s := by
  induction w with
  | nil => exact absurd rfl hw
  | cons c w ih =>
    have hc : isBlank c = false := hn c (List.mem_cons_self ..)
    rw [List.cons_append, words, if_neg (by rw [hc]; decide)]
    cases w with
    | nil =>
      have he : (([] : Text) ++ b :: s).head?.all isBlank = true := hb
      rw [if_pos he, List.nil_append, words_blank s hb]
    | cons d w =>
      have hd : isBlank d = false := hn d (List.mem_cons_of_mem c (List.mem_cons_self ..))
      have he : ((d :: w) ++ b :: s).head?.all isBlank = false := hd
      rw [if_neg (by rw [he]; decide),
        ih (List.cons_ne_nil d w) fun x hx => hn x (List.mem_cons_of_mem c hx)]
      rfl

/-- A text without blanks is one word. -/
theorem words_of_not_blank {w : Text} (hw : w ≠ []) (h : ∀ c ∈ w, isBlank c = false) :
    words w = [w] := by
  induction w with
  | nil => exact absurd rfl hw
  | cons c w ih =>
    obtain ⟨hc, hws⟩ := List.forall_mem_cons.1 h
    rw [words, if_neg (by rw [hc]; decide)]
    cases w with
    | nil => rfl
    | cons d w =>
      have hd : (d :: w).head?.all isBlank = false := hws d (List.mem_cons_self ..)
      rw [if_neg (by rw [hd]; decide), ih (List.cons_ne_nil d w) hws]
      rfl

end SpinnerMarkup.Text
