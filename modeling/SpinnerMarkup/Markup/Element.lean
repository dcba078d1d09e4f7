import SpinnerMarkup.Text.Blank
import SpinnerMarkup.Text.Pattern

/-! Empty `<div>` elements.

An element is `<div`, its attribute text and its ending: blanks and `/>`, or blanks and `>`, blanks
and `</div>`. The attribute text is walked character by character; a character inside a quoted
string ends nothing, a bare `>` that is no part of an ending ends the candidate. `Element.pattern`
packs the reader with the proof that an element is the front of the text it was read from. -/
namespace SpinnerMarkup

open Text

/-- An empty element: what stands between `<div` and the ending, and the ending. -/
structure Element where
  /-- The attribute text, with its first blank and without the blanks before the ending. -/
  attributes : Text
  /-- The blanks and marks that close the element. -/
  ending : Text
  deriving Repr, DecidableEq

namespace Element

def opening : Text := ['<', 'd', 'i', 'v']

def source (e : Element) : Text := opening ++ e.attributes ++ e.ending

/-- The element with one more character in front of its attributes. -/
def cons (c : Char) (e : Element) : Element := { e with attributes := c :: e.attributes }

/-! ### Reading -/

/-- Blanks, `</div`, blanks, `>` at the front of a text. -/
def closeTag? (s : Text) : Option Text :=
  match after? ['<', '/', 'd', 'i', 'v'] (s.dropWhile isBlank) with
  | none => none
  | some t =>
    match after? ['>'] (t.dropWhile isBlank) with
    | none => none
    | some _ =>
      some (s.takeWhile isBlank ++ ['<', '/', 'd', 'i', 'v'] ++ t.takeWhile isBlank ++ ['>'])

/-- The ending at the front of a text: blanks, then `/>`, or `>` and a closing tag with only blanks
between. -/
def ending? (s : Text) : Option Text :=
  match after? ['/', '>'] (s.dropWhile isBlank) with
  | some _ => some (s.takeWhile isBlank ++ ['/', '>'])
  | none =>
    match after? ['>'] (s.dropWhile isBlank) with
    | some t => (closeTag? t).map (s.takeWhile isBlank ++ ['>'] ++ ·)
    | none => none

/-- Walks the attributes up to the first place where an ending stands. `quote` is the mark of the
string the walk is inside, if any. A string left open, a bare `>` or the end of the text is a
failure. -/
def walk? (quote : Option Char) : Text → Option Element
  | [] => none
  | c :: s =>
    match quote with
    | some q => (walk? (if c = q then none else some q) s).map (cons c)
    | none =>
      match ending? (c :: s) with
      | some e => some ⟨[], e⟩
      | none =>
        if c = '>' then none
        else (walk? (if isQuote c then some c else none) s).map (cons c)

/-- The element at the front of a text. Attributes begin with a blank; without one the ending
follows `<div` directly. -/
def read? (s : Text) : Option Element :=
  match after? opening s with
  | none => none
  | some t =>
    match t with
    | [] => none
    | c :: u => if isBlank c then (walk? none u).map (cons c) else (ending? t).map (⟨[], ·⟩)

/-! ### What is read is the front of the text -/

theorem closeTag?_front {s e : Text} (h : closeTag? s = some e) : ∃ r, s = e ++ r := by
  unfold closeTag? at h
  split at h
  · cases h
  · next t ht =>
    split at h
    · cases h
    · next r hr =>
      refine ⟨r, (after?_dropWhile_split ht).trans ?_⟩
      rw [← Option.some.inj h, List.append_assoc _ _ r, List.append_assoc _ _ (_ ++ r),
        ← List.append_assoc _ _ r, ← after?_dropWhile_split hr]

theorem ending?_front {s e : Text} (h : ending? s = some e) : ∃ r, s = e ++ r := by
  unfold ending? at h
  split at h
  · next r hr =>
    exact ⟨r, (after?_dropWhile_split hr).trans (by rw [← Option.some.inj h])⟩
  · split at h
    · next t ht =>
      obtain ⟨close, hc, rfl⟩ := Option.map_eq_some_iff.1 h
      obtain ⟨r, rfl⟩ := closeTag?_front hc
      exact ⟨r, (after?_dropWhile_split ht).trans (List.append_assoc _ _ _).symm⟩
    · cases h

theorem walk?_front {quote : Option Char} {s : Text} {e : Element} (h : walk? quote s = some e) :
    ∃ r, s = e.attributes ++ e.ending ++ r := by
  induction s generalizing quote e with
  | nil => cases h
  | cons c s ih =>
    have step : ∀ {inner : Option Char}, (walk? inner s).map (cons c) = some e →
        ∃ r, c :: s = e.attributes ++ e.ending ++ r := by
      intro inner h
      obtain ⟨e', he, rfl⟩ := Option.map_eq_some_iff.1 h
      obtain ⟨r, rfl⟩ := ih he
      exact ⟨r, rfl⟩
    cases quote with
    | some q =>
      rw [walk?] at h
      exact step h
    | none =>
      rw [walk?] at h
      split at h
      · next e' he =>
        obtain ⟨r, hr⟩ := ending?_front he
        obtain rfl := Option.some.inj h
        exact ⟨r, hr⟩
      · split at h
        · cases h
        · exact step h

/-- **An element is the front of the text it was read from.** -/
theorem read?_front {s : Text} {e : Element} (h : read? s = some e) : ∃ r, s = e.source ++ r := by
  unfold read? at h
  split at h
  · simp at h
  · next t ht =>
    rw [after?_eq_some_iff] at ht
    subst ht
    split at h
    · simp at h
    · next c u =>
      split at h
      · obtain ⟨e', he, rfl⟩ := Option.map_eq_some_iff.1 h
        obtain ⟨r, rfl⟩ := walk?_front he
        exact ⟨r, by simp [source, cons]⟩
      · obtain ⟨t, ht, rfl⟩ := Option.map_eq_some_iff.1 h
        obtain ⟨r, hr⟩ := ending?_front ht
        exact ⟨r, by simp [source, hr]⟩

theorem source_ne_nil (e : Element) : e.source ≠ [] := by
  simp [source, opening]

/-- Elements as a pattern; what stands before one does not matter. -/
def pattern : Pattern Element where
  read? _ s := read? s
  source := source
  source_front := read?_front
  source_ne_nil _ := source_ne_nil _

end Element
end SpinnerMarkup
