import SpinnerMarkup.Proofs.Detection

/-! Runs of a catalog one after another come to an end.

A run may leave something for the next one to replace, so one run need not be the last. But every
replaced element takes its own `<div` with it, and no invocation brings one in: none stands inside it, and
none forms where it meets the text around it (`openings_render_append`, `Rule.opening_of_apply`). So the
number of openings falls with every pass by at least the number of elements it takes (`openings_apply_le`).
A text with `n` openings is settled after at most `n` runs that change it, and all of them together replace
at most `n` elements (`apply_settles`). -/
namespace SpinnerMarkup

open Text

/-! ### Openings -/

/-- The number of places in a text at which `<div` stands. -/
def openings (t : Text) : Nat := t.tails.countP (Element.opening.isPrefixOf ·)

theorem openings_nil : openings [] = 0 := rfl

theorem openings_cons (c : Char) (s : Text) :
    openings (c :: s) = openings s + if Element.opening <+: c :: s then 1 else 0 := by
  show ((c :: s) :: s.tails).countP (Element.opening.isPrefixOf ·) = _
  rw [List.countP_cons]
  simp only [List.isPrefixOf_iff_prefix]
  rfl

/-- No opening reaches over a closing mark. -/
theorem openings_append_close (x s : Text) :
    openings (x ++ '>' :: s) = openings x + openings s := by
  induction x with
  | nil => simp [openings_cons, openings_nil, Element.opening]
  | cons c x ih =>
    have hfront : Element.opening <+: c :: (x ++ '>' :: s) ↔ Element.opening <+: c :: x :=
      prefix_append_mark_iff (x := c :: x) (by decide)
    rw [List.cons_append, openings_cons, openings_cons, ih]
    simp only [hfront]
    omega

theorem openings_eq_zero {w : Text} (h : '<' ∉ w) : openings w = 0 := by
  induction w with
  | nil => rfl
  | cons c w ih =>
    obtain ⟨hc, hw⟩ : '<' ≠ c ∧ '<' ∉ w := by simpa using h
    simp [openings_cons, ih hw, Element.opening, hc]

/-- An invocation adds no opening, neither by itself nor with what follows it. -/
theorem openings_render_append (i : Invocation) (s : Text) : openings (i.render ++ s) = openings s := by
  obtain ⟨w, hw, hlt, -⟩ := i.render_shape
  have hshape : i.render ++ s = '<' :: 'L' :: w ++ '>' :: s := by simp [hw]
  have hnone : openings ('<' :: 'L' :: w) = 0 := by
    have hrest : openings ('L' :: w) = 0 := openings_eq_zero (by simpa using hlt)
    simp [openings_cons '<', hrest, Element.opening]
  rw [hshape, openings_append_close, hnone, Nat.zero_add]

/-- An element has openings of its own, its first at least. -/
theorem exists_openings_source {e : Element} {s : Text} (h : Element.read? (e.source ++ s) = some e) :
    ∃ n, ∀ t, openings (e.source ++ t) = n + 1 + openings t := by
  obtain ⟨w, c, hw⟩ := (List.eq_nil_or_concat e.source).resolve_left (Element.source_ne_nil e)
  rw [List.concat_eq_append] at hw
  obtain rfl : c = '>' := by simpa [hw] using Element.getLast?_source h
  have hfront : Element.opening <+: w := by
    have hopens := Element.opening_prefix_source e
    rwa [hw, prefix_append_mark_iff (by decide)] at hopens
  obtain ⟨z, hz⟩ := hfront
  have hpos : 1 ≤ openings w := by
    have hopens : Element.opening <+: '<' :: 'd' :: 'i' :: 'v' :: z := List.prefix_append Element.opening z
    rw [← hz]
    show 1 ≤ openings ('<' :: 'd' :: 'i' :: 'v' :: z)
    rw [openings_cons, if_pos hopens]
    omega
  refine ⟨openings w - 1, fun t => ?_⟩
  have hsplit : e.source ++ t = w ++ '>' :: t := by simp [hw]
  rw [hsplit, openings_append_close]
  omega

/-! ### One pass -/

namespace Rule

theorem apply_plain (r : Rule) {c : Char} {s : Text} (h : Element.read? (c :: s) = none) :
    r.apply (c :: s) = c :: r.apply s ∧ r.count (c :: s) = r.count s := by
  rw [apply, count, Element.scan_plain h]
  exact ⟨rfl, List.countP_cons_of_neg (by simp [takes])⟩

theorem apply_found (r : Rule) {e : Element} {s : Text} (h : Element.read? (e.source ++ s) = some e) :
    r.apply (e.source ++ s) = r.rendered (.found e) ++ r.apply s ∧
      r.count (e.source ++ s) = r.count s + if r.replaces e then 1 else 0 := by
  rw [apply, count, Element.scan_found h]
  exact ⟨rfl, List.countP_cons⟩

/-- Where a kept character opens an element after a pass, it opened one before. -/
theorem opening_of_apply {r : Rule} {c : Char} {s : Text} (h : Element.opening <+: c :: r.apply s) :
    Element.opening <+: c :: s := by
  obtain ⟨t, ht⟩ := h
  have htext : Draft.text (.kept c :: r.revise (.ofSource s)) = c :: r.apply s := by
    rw [Draft.text_cons, text_revise, Draft.text_ofSource]
    rfl
  have hsource : Draft.source (.kept c :: r.revise (.ofSource s)) = c :: s := by
    rw [Draft.source_cons, source_revise, Draft.source_ofSource]
    rfl
  rw [← hsource]
  exact Draft.opening_front (htext.trans ht.symm)

/-- **Every element that a pass takes lowers the number of openings.** -/
theorem openings_apply_le (r : Rule) (t : Text) : openings (r.apply t) + r.count t ≤ openings t := by
  induction t using Element.scanInduction with
  | nil => exact Nat.le_refl 0
  | plain c s hread ih =>
    obtain ⟨happly, hcount⟩ := r.apply_plain hread
    rw [happly, hcount, openings_cons, openings_cons]
    by_cases hopens : Element.opening <+: c :: r.apply s
    · rw [if_pos hopens, if_pos (opening_of_apply hopens)]
      omega
    · rw [if_neg hopens]
      omega
  | found e s hread ih =>
    obtain ⟨happly, hcount⟩ := r.apply_found hread
    obtain ⟨n, hn⟩ := exists_openings_source hread
    rw [happly, hcount, hn, rendered_found]
    by_cases hr : r.replaces e = true
    · rw [if_pos hr, if_pos hr, openings_render_append]
      omega
    · rw [if_neg hr, if_neg hr, hn]
      omega

end Rule

/-! ### One run -/

theorem Outcome.openings_step_le (o : Outcome) (r : Rule) :
    openings (o.step r).text + (o.step r).replacements ≤ openings o.text + o.replacements := by
  by_cases h : r.count o.text = 0
  · rw [step_of_count_eq_zero h]
  · have hpass := r.openings_apply_le o.text
    have hsame : (Outcome.mk (r.apply o.text) o.hits).replacements = o.replacements := rfl
    rw [step_of_count_ne_zero h, replacements_snoc, hsame]
    show openings (r.apply o.text) + (o.replacements + r.count o.text) ≤ _
    omega

theorem Outcome.openings_foldl_step_le (rules : List Rule) (o : Outcome) :
    openings (rules.foldl step o).text + (rules.foldl step o).replacements ≤
      openings o.text + o.replacements := by
  induction rules generalizing o with
  | nil => exact Nat.le_refl _
  | cons r rules ih => exact Nat.le_trans (ih (o.step r)) (o.openings_step_le r)

namespace Catalog

/-- **A run lowers the number of openings by the number of elements it replaces, or more.** -/
theorem openings_apply_le (c : Catalog) (source : Text) :
    openings (c.apply source).text + (c.apply source).replacements ≤ openings source :=
  Outcome.openings_foldl_step_le c.rules ⟨source, []⟩

/-- A run that changes a text has replaced something. -/
theorem replacements_pos {c : Catalog} {source : Text} (h : (c.apply source).changed = true) :
    0 < (c.apply source).replacements := by
  have htraces := traces_run c.rules source
  exact Nat.lt_of_lt_of_le (htraces.one h) htraces.few

/-! ### Run after run -/

/-- The text after so many runs. -/
def rerun (c : Catalog) : Nat → Text → Text
  | 0, t => t
  | n + 1, t => c.rerun n (c.apply t).text

/-- What so many runs give, one after another. -/
def outcomes (c : Catalog) : Nat → Text → List Outcome
  | 0, _ => []
  | n + 1, t => c.apply t :: c.outcomes n (c.apply t).text

/-- The number of elements that some runs have replaced. -/
def replacedIn (outcomes : List Outcome) : Nat := outcomes.foldr (fun o n => o.replacements + n) 0

theorem openings_rerun_le (c : Catalog) (n : Nat) (source : Text) :
    openings (c.rerun n source) + replacedIn (c.outcomes n source) ≤ openings source := by
  induction n generalizing source with
  | zero => exact Nat.le_refl _
  | succ n ih =>
    have hrun := c.openings_apply_le source
    have hlater := ih (c.apply source).text
    have hsum : replacedIn (c.outcomes (n + 1) source) =
        (c.apply source).replacements + replacedIn (c.outcomes n (c.apply source).text) := rfl
    rw [rerun, hsum]
    omega

/-- A text that a run leaves alone is left alone by all runs after it. -/
theorem rerun_of_settled {c : Catalog} {t : Text} (h : c.apply t = ⟨t, []⟩) (n : Nat) :
    c.rerun n t = t := by
  induction n with
  | zero => rfl
  | succ n ih => rw [rerun, h, ih]

theorem rerun_add (c : Catalog) (n k : Nat) (t : Text) : c.rerun (n + k) t = c.rerun k (c.rerun n t) := by
  induction n generalizing t with
  | zero => rw [Nat.zero_add]; rfl
  | succ n ih => rw [Nat.add_right_comm, rerun, ih]; rfl

/-- The runs of a catalog over a text are at an end after `n` of them. -/
structure SettlesAfter (c : Catalog) (source : Text) (n : Nat) : Prop where
  few : n ≤ openings source
  /-- Each of these runs has changed the text it was given. -/
  changing : ∀ o ∈ c.outcomes n source, o.changed = true
  /-- No later run finds anything to replace. -/
  settled : ∀ k, n ≤ k → c.apply (c.rerun k source) = ⟨c.rerun n source, []⟩
  total : openings (c.rerun n source) + replacedIn (c.outcomes n source) ≤ openings source

theorem exists_settled (c : Catalog) (source : Text) :
    ∃ n ≤ openings source, (∀ o ∈ c.outcomes n source, o.changed = true) ∧
      c.apply (c.rerun n source) = ⟨c.rerun n source, []⟩ := by
  -- a run that changes the text leaves one with fewer openings
  induction hm : openings source using Nat.strong_induction_on generalizing source with
  | _ m ih =>
    cases hchanged : (c.apply source).changed with
    | false => exact ⟨0, Nat.zero_le m, by simp [outcomes], (c.changed_eq_false_iff source).1 hchanged⟩
    | true =>
      have hpos := replacements_pos hchanged
      have hrun := c.openings_apply_le source
      obtain ⟨n, hn, hall, hend⟩ := ih (openings (c.apply source).text) (by omega) (c.apply source).text rfl
      refine ⟨n + 1, by omega, ?_, hend⟩
      rw [outcomes, List.forall_mem_cons]
      exact ⟨hchanged, hall⟩

end Catalog

/-- **Runs of a catalog one after another come to an end**, after at most as many as the text has openings,
and all together they replace at most that many elements. -/
theorem apply_settles (c : Catalog) (source : Text) :
    openings (c.apply source).text + (c.apply source).replacements ≤ openings source ∧
      ∃ n, c.SettlesAfter source n := by
  obtain ⟨n, hfew, hchanging, hend⟩ := c.exists_settled source
  refine ⟨c.openings_apply_le source, n, hfew, hchanging, fun k hk => ?_, c.openings_rerun_le n source⟩
  obtain ⟨j, rfl⟩ := Nat.exists_eq_add_of_le hk
  rw [c.rerun_add, Catalog.rerun_of_settled hend]
  exact hend

end SpinnerMarkup
