import SpinnerMarkup.Catalog
import SpinnerMarkup.Proofs.Reading

/-! Scans, passes and runs of passes.

A scan of elements is given by three equations: at the end of the text, at a character where no
element begins, and at an element. `scanInduction` is induction along a scan. A pass that takes
nothing changes nothing, so the text after a run is the text after all its passes, and a run leaves
a text alone exactly when no rule takes an element of its scan (`apply_eq_self_iff`). -/
namespace SpinnerMarkup

namespace Element

/-! ### Scans -/

/-- What stands before a text does not matter to its scan. -/
theorem scanFrom_before (skip : Nat) (p q : Option Char) (s : Text) :
    pattern.scanFrom skip p s = pattern.scanFrom skip q s := by
  cases s with
  | nil => rfl
  | cons c s => cases skip <;> rfl

/-- Skipped characters leave no piece. -/
theorem scanFrom_eq_scan_drop (skip : Nat) (p : Option Char) (s : Text) :
    pattern.scanFrom skip p s = pattern.scan (s.drop skip) := by
  induction s generalizing skip p with
  | nil => cases skip <;> rfl
  | cons c s ih =>
    cases skip with
    | zero => exact scanFrom_before 0 p none (c :: s)
    | succ skip => exact ih skip (some c)

theorem scan_plain {c : Char} {s : Text} (h : read? (c :: s) = none) :
    pattern.scan (c :: s) = .plain c :: pattern.scan s := by
  have hr : pattern.read? none (c :: s) = none := h
  rw [Pattern.scan, Pattern.scanFrom, hr]
  dsimp only
  rw [scanFrom_eq_scan_drop, List.drop_zero]

theorem scan_found {s : Text} {e : Element} (h : read? (e.source ++ s) = some e) :
    pattern.scan (e.source ++ s) = .found e :: pattern.scan s := by
  obtain ⟨c, w, hw⟩ := List.exists_cons_of_ne_nil (source_ne_nil e)
  have hr : pattern.read? none (c :: (w ++ s)) = some e := by
    rw [← List.cons_append, ← hw]
    exact h
  have hlen : (pattern.source e).length - 1 = w.length := by
    show e.source.length - 1 = w.length
    rw [hw, List.length_cons, Nat.add_sub_cancel]
  rw [hw, List.cons_append, Pattern.scan, Pattern.scanFrom, hr]
  dsimp only
  rw [scanFrom_eq_scan_drop, hlen, List.drop_left]

/-- Characters among which no element begins. -/
theorem scan_plains {w s : Text} (h : ∀ v c u, w = v ++ c :: u → read? (c :: (u ++ s)) = none) :
    pattern.scan (w ++ s) = w.map .plain ++ pattern.scan s := by
  induction w with
  | nil => rfl
  | cons c w ih =>
    rw [List.cons_append, scan_plain (h [] c w rfl), ih fun v d u hw => h (c :: v) d u (by rw [hw]; rfl)]
    rfl

/-- Induction along a scan. -/
@[elab_as_elim]
theorem scanInduction {motive : Text → Prop} (nil : motive [])
    (plain : ∀ c s, read? (c :: s) = none → motive s → motive (c :: s))
    (found : ∀ e s, read? (e.source ++ s) = some e → motive s → motive (e.source ++ s))
    (s : Text) : motive s := by
  -- the text after an element is shorter than the text before it
  induction hn : s.length using Nat.strong_induction_on generalizing s with
  | _ n ih =>
    cases s with
    | nil => exact nil
    | cons c s =>
      cases hr : read? (c :: s) with
      | none => exact plain c s hr (ih s.length (by simp [← hn]) s rfl)
      | some e =>
        obtain ⟨r, hs⟩ := read?_front hr
        rw [hs] at hr hn ⊢
        have hpos := List.length_pos_iff.2 (source_ne_nil e)
        rw [List.length_append] at hn
        exact found e r hr (ih r.length (by omega) r rfl)

/-- Every element of a scan can be read. -/
theorem read?_of_mem_scan {s : Text} {e : Element} (h : .found e ∈ pattern.scan s) :
    read? e.source = some e := by
  induction s using scanInduction with
  | nil => cases h
  | plain c s hr ih =>
    rw [scan_plain hr] at h
    simpa using ih (by simpa using h)
  | found f s hr ih =>
    rw [scan_found hr] at h
    rcases List.mem_cons.1 h with hf | h
    · obtain rfl : e = f := by simpa using hf
      simpa using read?_source_append hr []
    · exact ih h

theorem mem_occurrences {s : Text} {e : Element} :
    e ∈ pattern.occurrences s ↔ .found e ∈ pattern.scan s := by
  simp only [Pattern.occurrences, List.mem_filterMap]
  constructor
  · rintro ⟨_ | f, hp, hf⟩
    · cases hf
    · obtain rfl := Option.some.inj hf
      exact hp
  · exact fun h => ⟨_, h, rfl⟩

end Element

/-! ### One pass -/

namespace Rule

theorem rendered_plain (r : Rule) (c : Char) : r.rendered (.plain c) = [c] := rfl

theorem rendered_found (r : Rule) (e : Element) :
    r.rendered (.found e) = if r.replaces e then r.replacement.render else e.source := rfl

theorem count_eq_countP (r : Rule) (t : Text) :
    r.count t = (Element.pattern.occurrences t).countP r.replaces := by
  rw [count, Pattern.occurrences, List.countP_filterMap]
  congr 1
  funext p
  cases p <;> rfl

theorem count_eq_zero_iff {r : Rule} {t : Text} :
    r.count t = 0 ↔ ∀ e ∈ Element.pattern.occurrences t, r.replaces e = false := by
  rw [count_eq_countP, List.countP_eq_zero]
  simp

/-- A pass that takes nothing changes nothing. -/
theorem apply_of_count_eq_zero {r : Rule} {t : Text} (h : r.count t = 0) : r.apply t = t := by
  have hr : (Element.pattern.scan t).flatMap r.rendered =
      (Element.pattern.scan t).flatMap Element.pattern.pieceSource :=
    List.flatMap_congr fun p hp => by simp [rendered, List.countP_eq_zero.1 h p hp]
  rw [apply, hr, Element.pattern.flatMap_source_scan]

end Rule

/-! ### A run of passes -/

/-- The text after some rules have passed over it in turn. -/
def textAfter (rules : List Rule) (t : Text) : Text := rules.foldl (fun t r => r.apply t) t

theorem textAfter_cons (r : Rule) (rules : List Rule) (t : Text) :
    textAfter (r :: rules) t = textAfter rules (r.apply t) := rfl

theorem textAfter_append (rules rules' : List Rule) (t : Text) :
    textAfter (rules ++ rules') t = textAfter rules' (textAfter rules t) :=
  List.foldl_append

theorem textAfter_snoc (r : Rule) (rules : List Rule) (t : Text) :
    textAfter (rules ++ [r]) t = r.apply (textAfter rules t) :=
  textAfter_append rules [r] t

theorem Outcome.step_of_count_eq_zero {o : Outcome} {r : Rule} (h : r.count o.text = 0) :
    o.step r = o := by
  simp [step, h]

theorem Outcome.step_of_count_ne_zero {o : Outcome} {r : Rule} (h : r.count o.text ≠ 0) :
    o.step r = ⟨r.apply o.text, o.hits ++ [⟨r.name, r.replacement.component, r.count o.text⟩]⟩ := by
  simp [step, h]

theorem Outcome.step_text (o : Outcome) (r : Rule) : (o.step r).text = r.apply o.text := by
  by_cases h : r.count o.text = 0
  · rw [step_of_count_eq_zero h, Rule.apply_of_count_eq_zero h]
  · rw [step_of_count_ne_zero h]

theorem Outcome.foldl_step_text (rules : List Rule) (o : Outcome) :
    (rules.foldl step o).text = textAfter rules o.text := by
  induction rules generalizing o with
  | nil => rfl
  | cons r rules ih => rw [List.foldl_cons, ih, step_text, textAfter_cons]

theorem Catalog.apply_text (c : Catalog) (t : Text) : (c.apply t).text = textAfter c.rules t :=
  Outcome.foldl_step_text c.rules ⟨t, []⟩

/-- Hits are only added. -/
theorem Outcome.hits_extend (rules : List Rule) (o : Outcome) :
    o.hits <+: (rules.foldl step o).hits := by
  induction rules generalizing o with
  | nil => exact List.prefix_refl _
  | cons r rules ih =>
    refine List.IsPrefix.trans ?_ (ih (o.step r))
    by_cases h : r.count o.text = 0
    · simp only [step_of_count_eq_zero h, List.prefix_refl]
    · simp only [step_of_count_ne_zero h, List.prefix_append]

theorem Outcome.foldl_step_eq_self_iff (rules : List Rule) (o : Outcome) :
    rules.foldl step o = o ↔ ∀ r ∈ rules, r.count o.text = 0 := by
  induction rules generalizing o with
  | nil => simp
  | cons r rules ih =>
    rw [List.foldl_cons, List.forall_mem_cons]
    by_cases hr : r.count o.text = 0
    · rw [step_of_count_eq_zero hr, ih]
      simp [hr]
    · -- a rule that takes something leaves a hit, and hits are only added
      have hlen : (o.step r).hits.length = o.hits.length + 1 := by simp [step_of_count_ne_zero hr]
      have hle := (hits_extend rules (o.step r)).length_le
      simp only [hr, false_and, iff_false]
      intro h
      rw [h] at hle
      omega

/-- **A catalog leaves a text alone exactly when no rule takes an element of its scan.** -/
theorem Catalog.apply_eq_self_iff (c : Catalog) (t : Text) :
    c.apply t = ⟨t, []⟩ ↔
      ∀ r ∈ c.rules, ∀ e ∈ Element.pattern.occurrences t, r.replaces e = false := by
  rw [apply, Outcome.foldl_step_eq_self_iff]
  simp only [Rule.count_eq_zero_iff]

end SpinnerMarkup
