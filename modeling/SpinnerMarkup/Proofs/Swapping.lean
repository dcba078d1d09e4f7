import Mathlib.Data.List.Infix
import SpinnerMarkup.Proofs.Draft

/-! Putting invocations in place of elements, where opening tags do not nest.

`swapText f s` is the text `s` with invocations in place of the elements `f` names. Replacing an
element can in general bring another into being, since its quotation marks and its closing mark go
with it. It cannot where every tag closes before the next opens (`Unnested`): then a `<div` that
begins no element begins none in the result, and an element that is left keeps its place and its
attributes. `scan_swapText` says both at once. -/
namespace SpinnerMarkup

open Text

theorem Text.contains_eq_true_iff {part s : Text} : contains part s = true ↔ part <:+: s := by
  induction s with
  | nil =>
    rw [contains, Option.isSome_iff_exists]
    simp [after?_eq_some_iff]
  | cons c s ih =>
    rw [contains, Bool.or_eq_true, ih, List.infix_cons_iff, Option.isSome_iff_exists]
    simp only [after?_eq_some_iff]
    exact or_congr ⟨fun ⟨r, h⟩ => ⟨r, h.symm⟩, fun ⟨r, h⟩ => ⟨r, h.symm⟩⟩ Iff.rfl

namespace Element

/-! ### Tags that do not nest -/

/-- The text of a tag up to the first closing mark outside strings. A quotation mark without a
partner opens no string here. -/
def bareTag? (quote : Option Char) : Text → Option Text
  | [] => none
  | c :: s =>
    match quote with
    | some q => (bareTag? (if c = q then none else some q) s).map (c :: ·)
    | none =>
      if c = '>' then some []
      else (bareTag? (if isQuote c && s.elem c then some c else none) s).map (c :: ·)

/-- Every `<div` with a blank after it closes its tag before the next `<div`, if there is a next. -/
def Unnested (s : Text) : Prop :=
  ∀ t, opening ++ t <:+ s → t.head?.any isBlank = true → contains opening t = true →
    ∃ v, bareTag? none t = some v ∧ contains opening v = false

instance (s : Text) : Decidable (Unnested s) :=
  decidable_of_iff (∀ u ∈ s.tails, ∀ t ∈ after? opening u, t.head?.any isBlank = true →
      contains opening t = true → ∃ v ∈ bareTag? none t, contains opening v = false) (by
    simp only [List.mem_tails, Option.mem_def, after?_eq_some_iff]
    constructor
    · exact fun h t ht => h _ ht t rfl
    · rintro h _ hu t rfl
      exact h t hu)

theorem Unnested.of_append {x s : Text} (h : Unnested (x ++ s)) : Unnested s :=
  fun t ht => h t (ht.trans (List.suffix_append x s))

variable (f : Element → Option Invocation)

/-- What a piece becomes when `f` says which elements are replaced, and by what. -/
def swapped : Piece Element → Text
  | .plain c => [c]
  | .found e => ((f e).map Invocation.render).getD e.source

variable {f}

theorem walk?_mark {q : Char} (hq : isQuote q = true) (s : Text) :
    walk? none (q :: s) = (walk? (some q) s).map (cons q) := by
  have hmark : isBlank q = false ∧ q ≠ '/' ∧ q ≠ '>' := by
    simp only [isQuote, Bool.or_eq_true, beq_iff_eq] at hq
    rcases hq with rfl | rfl <;> decide
  rw [walk?, ending?_other hmark.1 hmark.2.1 hmark.2.2]
  simp [hmark.2.2, hq]

end Element

end SpinnerMarkup
