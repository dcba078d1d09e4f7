import SpinnerMarkup.Proofs.Pass

/-! A run looks at no text that lies around the elements.

Every element begins with an opening mark and ends with a closing mark. So none begins in a text
without opening marks that stands before another, and none ends in a text without closing marks that
stands after it, whatever quotation marks that text may close: the reader gives the same answer with
it and without it (`read?_append_unclosed`). A scan then has the pieces of the text between, with a
plain piece for each character around it (`scan_surrounded`). What a rule writes in the text between
leaves the text around it as it is, so the same holds for every pass and for the whole run
(`apply_surrounded`). -/
namespace SpinnerMarkup

namespace Element

/-! ### Reading beside a text without closing marks -/

/-- **What follows a text has no say in how its front is read, if it closes nothing.** -/
theorem read?_append_unclosed {after : Text} (ha : '>' ∉ after) (s : Text) :
    read? (s ++ after) = read? s := by
  cases hr : read? s with
  | some e =>
    obtain ⟨r, rfl⟩ := read?_front hr
    rw [List.append_assoc]
    exact read?_source_append hr (r ++ after)
  | none =>
    cases hs : read? (s ++ after) with
    | none => rfl
    | some e =>
      obtain ⟨r, hsplit⟩ := read?_front hs
      rcases List.append_eq_append_iff.1 hsplit with ⟨y, hy, hafter⟩ | ⟨y, rfl, -⟩
      · -- the element reaches over the end of `s`, so its closing mark stands in `after`
        rcases List.eq_nil_or_concat y with rfl | ⟨w, c, rfl⟩
        · rw [List.append_nil] at hy
          have hread := read?_source_append hs []
          rw [List.append_nil, hy, hr] at hread
          cases hread
        · obtain rfl : c = '>' := by simpa [hy] using getLast?_source hs
          exact absurd (by simp [hafter]) ha
      · rw [read?_source_append hs y] at hr
        cases hr

theorem read?_unclosed {after : Text} (ha : '>' ∉ after) : read? after = none :=
  read?_append_unclosed ha []

/-! ### Scans -/

theorem scan_unclosed {after : Text} (ha : '>' ∉ after) : pattern.scan after = after.map .plain := by
  induction after with
  | nil => rfl
  | cons c after ih =>
    obtain ⟨-, hrest⟩ : '>' ≠ c ∧ '>' ∉ after := by simpa using ha
    rw [scan_plain (read?_unclosed ha), ih hrest]
    rfl

theorem scan_append_unclosed {after : Text} (ha : '>' ∉ after) (s : Text) :
    pattern.scan (s ++ after) = pattern.scan s ++ after.map .plain := by
  induction s using scanInduction with
  | nil => exact scan_unclosed ha
  | plain c s hr ih =>
    have hrest : read? (c :: (s ++ after)) = none := (read?_append_unclosed ha (c :: s)).trans hr
    rw [List.cons_append, scan_plain hrest, ih, scan_plain hr, List.cons_append]
  | found e s hr ih =>
    have hrest : read? (e.source ++ (s ++ after)) = some e := read?_source_append hr (s ++ after)
    rw [List.append_assoc, scan_found hrest, ih, scan_found hr, List.cons_append]

theorem scan_unopened_append {before : Text} (hb : '<' ∉ before) (s : Text) :
    pattern.scan (before ++ s) = before.map .plain ++ pattern.scan s := by
  refine scan_plains fun v c u hsplit => read?_eq_none_of_head ?_ (u ++ s)
  rintro rfl
  exact hb (by simp [hsplit])

/-- **A text in its surroundings has the pieces that it has alone.** -/
theorem scan_surrounded {before after : Text} (hb : '<' ∉ before) (ha : '>' ∉ after) (s : Text) :
    pattern.scan (before ++ s ++ after) =
      before.map .plain ++ pattern.scan s ++ after.map .plain := by
  rw [scan_append_unclosed ha, scan_unopened_append hb]

end Element

/-! ### Passes -/

namespace Rule

theorem flatMap_rendered_plain (r : Rule) (w : Text) : (w.map Piece.plain).flatMap r.rendered = w := by
  induction w with
  | nil => rfl
  | cons c w ih => rw [List.map_cons, List.flatMap_cons, ih, rendered_plain, List.singleton_append]

theorem countP_takes_plain (r : Rule) (w : Text) : (w.map Piece.plain).countP r.takes = 0 :=
  List.countP_eq_zero.2 fun p hp => by
    obtain ⟨c, -, rfl⟩ := List.mem_map.1 hp
    simp [takes]

variable {before after : Text} (hb : '<' ∉ before) (ha : '>' ∉ after) (r : Rule) (t : Text)
include hb ha

theorem text_surrounded : r.apply (before ++ t ++ after) = before ++ r.apply t ++ after := by
  simp only [apply, Element.scan_surrounded hb ha, List.flatMap_append, flatMap_rendered_plain]

theorem count_surrounded : r.count (before ++ t ++ after) = r.count t := by
  simp only [count, Element.scan_surrounded hb ha, List.countP_append, countP_takes_plain,
    Nat.zero_add, Nat.add_zero]

end Rule

/-! ### Runs -/

namespace Outcome

/-- The outcome with a text before and a text after its own. -/
def surrounded (before after : Text) (o : Outcome) : Outcome :=
  { o with text := before ++ o.text ++ after }

theorem step_surrounded {before after : Text} (hb : '<' ∉ before) (ha : '>' ∉ after) (o : Outcome)
    (r : Rule) : (o.surrounded before after).step r = (o.step r).surrounded before after := by
  have hcount : r.count (o.surrounded before after).text = r.count o.text :=
    r.count_surrounded hb ha o.text
  have happly : r.apply (o.surrounded before after).text = before ++ r.apply o.text ++ after :=
    r.text_surrounded hb ha o.text
  by_cases h : r.count o.text = 0
  · rw [step_of_count_eq_zero h, step_of_count_eq_zero (hcount.trans h)]
  · rw [step_of_count_ne_zero h, step_of_count_ne_zero (hcount.trans_ne h), hcount, happly]
    rfl

end Outcome

/-- **A run does to a text in its surroundings what it does to the text alone**, if what stands before
the text opens nothing and what stands after it closes nothing. -/
theorem apply_surrounded (c : Catalog) {before after : Text} (hb : '<' ∉ before) (ha : '>' ∉ after)
    (t : Text) :
    (c.apply (before ++ t ++ after)).hits = (c.apply t).hits ∧
      (c.apply (before ++ t ++ after)).text = before ++ (c.apply t).text ++ after := by
  have hrun : c.apply (before ++ t ++ after) = (c.apply t).surrounded before after := calc
    c.apply (before ++ t ++ after)
    _ = c.rules.foldl Outcome.step (Outcome.surrounded before after ⟨t, []⟩) := rfl
    _ = (c.apply t).surrounded before after :=
      List.foldl_hom (Outcome.surrounded before after) fun o r => Outcome.step_surrounded hb ha o r
  rw [hrun]
  exact ⟨rfl, rfl⟩

/-- Two spinners and an opening tag whose string is left open. -/
def openTail : Text :=
  "<div title='a > b' className=\"animate-spin\" />".toList ++
    "<div className='h-4 animate-spin rounded-full'></div><div className=\"animate-spin\" id='".toList

/-- What follows closes the string and another tag's quotation mark, but no tag. -/
theorem openTail_surrounded :
    '<' ∉ "a > b && \"".toList ∧ '>' ∉ "' /\n<div className=\"animate-spin\" /".toList ∧
      (Catalog.standard.apply openTail).replacements = 2 ∧
      (Catalog.standard.apply ("a > b && \"".toList ++ openTail ++
        "' /\n<div className=\"animate-spin\" /".toList)).hits = (Catalog.standard.apply openTail).hits ∧
      (Catalog.standard.apply ("a > b && \"".toList ++ openTail ++
        "' /\n<div className=\"animate-spin\" /".toList)).text =
      "a > b && \"".toList ++ ("<LoadingCentered /><LoadingInline />".toList ++
        "<div className=\"animate-spin\" id='".toList) ++
      "' /\n<div className=\"animate-spin\" /".toList := by
  have hb : '<' ∉ "a > b && \"".toList := by decide
  have ha : '>' ∉ "' /\n<div className=\"animate-spin\" /".toList := by decide
  have halone : Catalog.standard.apply openTail =
      ⟨"<LoadingCentered /><LoadingInline />".toList ++ "<div className=\"animate-spin\" id='".toList,
        [⟨"small-inline".toList, .inline, 1⟩, ⟨"generic-centered".toList, .centered, 1⟩]⟩ := by
    decide +kernel
  obtain ⟨hhits, htext⟩ := apply_surrounded Catalog.standard hb ha openTail
  exact ⟨hb, ha, by rw [halone]; rfl, hhits, by rw [htext, halone]⟩

end SpinnerMarkup
