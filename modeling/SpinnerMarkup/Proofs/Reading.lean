import Mathlib.Data.List.Basic
import Mathlib.Data.List.TakeWhile
import SpinnerMarkup.Markup.Element

/-! An element is read the same whatever follows it.

`IsEnding` is the grammar of an ending, and `ending?_eq_some_iff` says that the reader finds an
ending exactly where the text begins with one. From there the walk through the attributes is
followed character by character: `read?_source_append` says that the text of an element, with
anything after it, reads as that element. An element begins with `<div` and ends with `>`, and
every `<` in an ending belongs to a closing tag. -/
namespace SpinnerMarkup.Element

open Text

/-! ### Blanks -/

/-- Nothing but blanks. -/
def Blanks (b : Text) : Prop := ∀ c ∈ b, isBlank c = true

instance (b : Text) : Decidable (Blanks b) := decidable_of_iff (b.all isBlank = true) List.all_eq_true

theorem ne_of_isBlank {c d : Char} (hc : isBlank c = true) (hd : isBlank d = false) : c ≠ d := by
  rintro rfl
  rw [hc] at hd
  cases hd

theorem blanks_takeWhile (s : Text) : Blanks (s.takeWhile isBlank) := fun _ h => List.mem_takeWhile_imp h

theorem takeWhile_blanks {b : Text} (hb : Blanks b) {c : Char} (hc : isBlank c = false) (r : Text) :
    (b ++ c :: r).takeWhile isBlank = b :=
  takeWhile_stop hb hc r

theorem dropWhile_blanks {b : Text} (hb : Blanks b) {c : Char} (hc : isBlank c = false) (r : Text) :
    (b ++ c :: r).dropWhile isBlank = c :: r :=
  dropWhile_stop hb hc r

/-! ### Endings -/

/-- The texts that close an empty element. -/
inductive IsEnding : Text → Prop where
  | selfClosing {b : Text} : Blanks b → IsEnding (b ++ ['/', '>'])
  | paired {b b' b'' : Text} : Blanks b → Blanks b' → Blanks b'' →
      IsEnding (b ++ ['>'] ++ (b' ++ ['<', '/', 'd', 'i', 'v'] ++ b'' ++ ['>']))

theorem closeTag?_append {b b' : Text} (hb : Blanks b) (hb' : Blanks b') (r : Text) :
    closeTag? (b ++ ['<', '/', 'd', 'i', 'v'] ++ b' ++ ['>'] ++ r) =
      some (b ++ ['<', '/', 'd', 'i', 'v'] ++ b' ++ ['>']) := by
  have hs : b ++ ['<', '/', 'd', 'i', 'v'] ++ b' ++ ['>'] ++ r =
      b ++ '<' :: ('/' :: 'd' :: 'i' :: 'v' :: (b' ++ '>' :: r)) := by simp
  have hlt : isBlank '<' = false := by decide
  have hgt : isBlank '>' = false := by decide
  rw [hs, closeTag?, dropWhile_blanks hb hlt, takeWhile_blanks hb hlt]
  simp [after?, dropWhile_blanks hb' hgt, takeWhile_blanks hb' hgt]

theorem isEnding_of_closeTag? {b s n : Text} (hb : Blanks b) (h : closeTag? s = some n) :
    IsEnding (b ++ ['>'] ++ n) := by
  unfold closeTag? at h
  split at h
  · cases h
  · split at h
    · cases h
    · obtain rfl := Option.some.inj h
      exact .paired hb (blanks_takeWhile _) (blanks_takeWhile _)

theorem isEnding_of_ending? {s n : Text} (h : ending? s = some n) : IsEnding n := by
  unfold ending? at h
  split at h
  · obtain rfl := Option.some.inj h
    exact .selfClosing (blanks_takeWhile s)
  · split at h
    · obtain ⟨close, hc, rfl⟩ := Option.map_eq_some_iff.1 h
      exact isEnding_of_closeTag? (blanks_takeWhile s) hc
    · cases h

/-- An ending is read whatever follows it. -/
theorem ending?_append {n : Text} (h : IsEnding n) (r : Text) : ending? (n ++ r) = some n := by
  have hslash : isBlank '/' = false := by decide
  have hgt : isBlank '>' = false := by decide
  cases h with
  | @selfClosing b hb =>
    have hs : b ++ ['/', '>'] ++ r = b ++ '/' :: '>' :: r := by simp
    rw [hs, ending?, dropWhile_blanks hb hslash, takeWhile_blanks hb hslash]
    simp [after?]
  | @paired b b' b'' hb hb' hb'' =>
    have hs : b ++ ['>'] ++ (b' ++ ['<', '/', 'd', 'i', 'v'] ++ b'' ++ ['>']) ++ r =
        b ++ '>' :: (b' ++ ['<', '/', 'd', 'i', 'v'] ++ b'' ++ ['>'] ++ r) := by simp
    rw [hs, ending?, dropWhile_blanks hb hgt, takeWhile_blanks hb hgt]
    simp only [after?, Char.reduceEq, if_false, if_true, closeTag?_append hb' hb'']
    rfl

/-- **The reader finds an ending exactly where the text begins with one.** -/
theorem ending?_eq_some_iff {s n : Text} : ending? s = some n ↔ IsEnding n ∧ ∃ r, s = n ++ r := by
  constructor
  · exact fun h => ⟨isEnding_of_ending? h, ending?_front h⟩
  · rintro ⟨hn, r, rfl⟩
    exact ending?_append hn r

theorem IsEnding.ne_nil {n : Text} (h : IsEnding n) : n ≠ [] := by
  cases h <;> simp

theorem IsEnding.getLast? {n : Text} (h : IsEnding n) : n.getLast? = some '>' := by
  cases h <;> simp [List.getLast?_cons]

/-! ### Endings character by character -/

theorem ending?_blank {c : Char} (h : isBlank c = true) (s : Text) :
    ending? (c :: s) = (ending? s).map (c :: ·) := by
  simp only [ending?, List.dropWhile_cons_of_pos h, List.takeWhile_cons_of_pos h]
  cases after? ['/', '>'] (s.dropWhile isBlank) with
  | some r => rfl
  | none =>
    cases after? ['>'] (s.dropWhile isBlank) with
    | none => rfl
    | some r => simp [Function.comp_def]

theorem ending?_slash (s : Text) : ending? ('/' :: s) = (after? ['>'] s).map fun _ => ['/', '>'] := by
  have h : ¬ isBlank '/' = true := by decide
  simp only [ending?, List.dropWhile_cons_of_neg h, List.takeWhile_cons_of_neg h]
  cases hs : after? ['>'] s <;> simp [after?, hs]

theorem ending?_other {c : Char} (hb : isBlank c = false) (hs : c ≠ '/') (hg : c ≠ '>') (s : Text) :
    ending? (c :: s) = none := by
  have h : ¬ isBlank c = true := by rw [hb]; decide
  simp [ending?, List.dropWhile_cons_of_neg h, after?, hs.symm, hg.symm]

theorem isQuote_of_isBlank {c : Char} (h : isBlank c = true) : isQuote c = false := by
  cases hq : isQuote c with
  | false => rfl
  | true =>
    simp only [isQuote, Bool.or_eq_true, beq_iff_eq] at hq
    rcases hq with rfl | rfl <;> exact absurd h (by decide)

theorem isBlank_of_isQuote {c : Char} (h : isQuote c = true) : isBlank c = false := by
  cases hc : isBlank c with
  | false => rfl
  | true =>
    rw [isQuote_of_isBlank hc] at h
    cases h

/-! ### The walk through the attributes -/

theorem walk?_of_ending? {s n : Text} (h : ending? s = some n) : walk? none s = some ⟨[], n⟩ := by
  cases s with
  | nil => cases h
  | cons c s => rw [walk?, h]

/-- The walk gives attributes exactly when it does not stand at an ending. -/
theorem walk?_attributes {s : Text} {e : Element} (h : walk? none s = some e) :
    ending? s = none ↔ e.attributes ≠ [] := by
  cases hs : ending? s with
  | some n =>
    rw [walk?_of_ending? hs] at h
    obtain rfl := Option.some.inj h
    simp
  | none =>
    cases s with
    | nil => cases h
    | cons c s =>
      rw [walk?, hs] at h
      dsimp only at h
      split at h
      · cases h
      · obtain ⟨e', -, rfl⟩ := Option.map_eq_some_iff.1 h
        simp [cons]

/-- The ending the walk stops at is one. -/
theorem walk?_isEnding {quote : Option Char} {s : Text} {e : Element} (h : walk? quote s = some e) :
    IsEnding e.ending := by
  induction s generalizing quote e with
  | nil => cases h
  | cons c s ih =>
    cases quote with
    | some q =>
      obtain ⟨e', he, rfl⟩ := Option.map_eq_some_iff.1 h
      exact ih (e := e') he
    | none =>
      rw [walk?] at h
      split at h
      · next n hn =>
        obtain rfl := Option.some.inj h
        exact isEnding_of_ending? hn
      · split at h
        · cases h
        · obtain ⟨e', he, rfl⟩ := Option.map_eq_some_iff.1 h
          exact ih (e := e') he

/-- A character that opens no ending here opens none when what follows the element changes. -/
theorem ending?_eq_none_append {c : Char} {s r : Text} {e : Element} (hc : c ≠ '>')
    (hn : ending? (c :: s) = none) (he : walk? (if isQuote c then some c else none) s = some e)
    (ih : walk? (if isQuote c then some c else none) (e.attributes ++ e.ending ++ r) = some e) :
    ending? (c :: (e.attributes ++ e.ending ++ r)) = none := by
  by_cases hb : isBlank c = true
  · rw [isQuote_of_isBlank hb] at he ih
    rw [ending?_blank hb, Option.map_eq_none_iff] at hn ⊢
    exact (walk?_attributes ih).2 ((walk?_attributes he).1 hn)
  · by_cases hs : c = '/'
    · subst hs
      rw [ending?_slash, Option.map_eq_none_iff] at hn ⊢
      obtain ⟨z, hz⟩ := walk?_front he
      have hne : e.attributes ++ e.ending ≠ [] := by simp [(walk?_isEnding he).ne_nil]
      obtain ⟨d, w, hw⟩ := List.exists_cons_of_ne_nil hne
      rw [hz, hw] at hn
      rw [hw]
      simpa [after?] using hn
    · exact ending?_other (by simpa using hb) hs hc _

/-- The walk takes the same attributes and ending whatever follows them. -/
theorem walk?_append {quote : Option Char} {s : Text} {e : Element} (h : walk? quote s = some e)
    (r : Text) : walk? quote (e.attributes ++ e.ending ++ r) = some e := by
  induction s generalizing quote e with
  | nil => cases h
  | cons c s ih =>
    cases quote with
    | some q =>
      obtain ⟨e', he, rfl⟩ := Option.map_eq_some_iff.1 h
      show walk? (some q) (c :: (e'.attributes ++ e'.ending ++ r)) = _
      rw [walk?, ih he]
      rfl
    | none =>
      rw [walk?] at h
      split at h
      · next n hn =>
        obtain rfl := Option.some.inj h
        exact walk?_of_ending? (ending?_append (isEnding_of_ending? hn) r)
      · next hn =>
        split at h
        · cases h
        · next hc =>
          obtain ⟨e', he, rfl⟩ := Option.map_eq_some_iff.1 h
          show walk? none (c :: (e'.attributes ++ e'.ending ++ r)) = _
          rw [walk?, ending?_eq_none_append hc hn he (ih he), if_neg hc, ih he]
          rfl

/-! ### Whole elements -/

theorem read?_blank {c : Char} (h : isBlank c = true) (u : Text) :
    read? (opening ++ c :: u) = (walk? none u).map (cons c) := by
  simp only [read?, after?_eq_some_iff.2 (rfl : opening ++ c :: u = opening ++ c :: u), if_pos h]

theorem read?_nonblank {c : Char} (h : isBlank c = false) (u : Text) :
    read? (opening ++ c :: u) = (ending? (c :: u)).map (⟨[], ·⟩) := by
  simp [read?, after?_eq_some_iff.2 (rfl : opening ++ c :: u = opening ++ c :: u), h]

theorem read?_eq_none_of_head {c : Char} (h : c ≠ '<') (s : Text) : read? (c :: s) = none := by
  simp [read?, opening, after?, h.symm]

/-- The two ways an element is read: by a walk through its attributes, or without attributes. -/
theorem read?_cases {s : Text} {e : Element} (h : read? s = some e) :
    ∃ c u, s = opening ++ c :: u ∧
      ((isBlank c = true ∧ ∃ e', walk? none u = some e' ∧ e = cons c e') ∨
        (isBlank c = false ∧ ∃ n, ending? (c :: u) = some n ∧ e = ⟨[], n⟩)) := by
  cases ht : after? opening s with
  | none => simp [read?, ht] at h
  | some t =>
    obtain rfl := after?_eq_some_iff.1 ht
    cases t with
    | nil =>
      rw [read?, ht] at h
      cases h
    | cons c u =>
      refine ⟨c, u, rfl, ?_⟩
      cases hc : isBlank c with
      | true =>
        rw [read?_blank hc] at h
        obtain ⟨e', he, rfl⟩ := Option.map_eq_some_iff.1 h
        exact .inl ⟨rfl, e', he, rfl⟩
      | false =>
        rw [read?_nonblank hc] at h
        obtain ⟨n, hn, rfl⟩ := Option.map_eq_some_iff.1 h
        exact .inr ⟨rfl, n, hn, rfl⟩

theorem source_append (e : Element) (r : Text) :
    e.source ++ r = opening ++ (e.attributes ++ e.ending ++ r) := by
  simp [source]

/-- **An element is read the same whatever follows it.** -/
theorem read?_source_append {s : Text} {e : Element} (h : read? s = some e) (r : Text) :
    read? (e.source ++ r) = some e := by
  rw [source_append]
  obtain ⟨c, u, rfl, ⟨hc, e', he, rfl⟩ | ⟨hc, n, hn, rfl⟩⟩ := read?_cases h
  · show read? (opening ++ c :: (e'.attributes ++ e'.ending ++ r)) = _
    rw [read?_blank hc, walk?_append he r]
    rfl
  · obtain ⟨hend, z, hz⟩ := ending?_eq_some_iff.1 hn
    obtain ⟨d, w, rfl⟩ := List.exists_cons_of_ne_nil hend.ne_nil
    obtain rfl : c = d := by simpa using congrArg List.head? hz
    show read? (opening ++ c :: (w ++ r)) = _
    rw [read?_nonblank hc, ← List.cons_append, ending?_append hend r]
    rfl

theorem read?_isEnding {s : Text} {e : Element} (h : read? s = some e) : IsEnding e.ending := by
  obtain ⟨c, u, rfl, ⟨-, e', he, rfl⟩ | ⟨-, n, hn, rfl⟩⟩ := read?_cases h
  · exact walk?_isEnding (e := e') he
  · exact isEnding_of_ending? hn

/-- An element ends with its closing mark. -/
theorem getLast?_source {s : Text} {e : Element} (h : read? s = some e) :
    e.source.getLast? = some '>' := by
  simp [source, (read?_isEnding h).getLast?]

theorem opening_prefix_source (e : Element) : opening <+: e.source :=
  ⟨e.attributes ++ e.ending, by simp [source]⟩

end SpinnerMarkup.Element
