import SpinnerMarkup.Proofs.AttributeText
import SpinnerMarkup.Proofs.BytePreservation

/-! When a run changes a text.

A run is a sequence of passes over texts that change on the way, yet whether it changes anything can
be read off the source: `Spots` looks at one scan of it. Up to the first pass that takes something
every rule sees the source as it is, and what has been replaced never becomes the source again: an
invocation and the part of the source it stands for differ in their second character
(`text_eq_source_iff`). So a run leaves a hit, and its text differs from the source, exactly when some
element of the source has a static class list that a rule takes. -/
namespace SpinnerMarkup

/-! ### Replaced text is different -/

/-- **The text of a draft is its source exactly when nothing in it has been replaced.** -/
theorem Draft.text_eq_source_iff {d : Draft} (hb : ∀ old r, .swapped old r ∈ d → Bounded old) :
    d.text = d.source ↔ d.swapCount = 0 := by
  induction d with
  | nil => exact iff_of_true rfl rfl
  | cons g d ih =>
    have hd : ∀ old r, .swapped old r ∈ d → Bounded old :=
      fun old r h => hb old r (List.mem_cons_of_mem g h)
    cases g with
    | kept c =>
      have hcount : swapCount (.kept c :: d) = swapCount d := rfl
      have htext : text (.kept c :: d) = source (.kept c :: d) ↔ text d = source d := by
        simp [Segment.text, Segment.source]
      rw [htext, hcount]
      exact ih hd
    | swapped old r =>
      have hcount : swapCount (.swapped old r :: d) = swapCount d + 1 :=
        List.countP_cons_of_pos rfl
      have hbound := hb old r (List.mem_cons_self ..)
      obtain ⟨rest, hold⟩ := hbound.opens
      obtain ⟨w, hw, -⟩ := r.replacement.render_shape
      refine iff_of_false ?_ (by omega)
      rw [text_cons, source_cons, Segment.text, Segment.source, hw, ← hold]
      simp [Element.opening]

/-- The text of a run is the source exactly when no rule has left a hit. -/
theorem Traces.text_eq_iff {source : Text} {rules : List Rule} {o : Outcome} {d : Draft}
    (h : Traces source rules o d) : o.text = source ↔ o.changed = false := by
  have hb : ∀ old r, .swapped old r ∈ d → Bounded old := fun old r hr => (h.swapped old r hr).1
  rw [← h.text, ← h.source, Draft.text_eq_source_iff hb]
  constructor
  · intro hnone
    by_contra hchanged
    have hone := h.one (by simpa using hchanged)
    omega
  · intro hunchanged
    have hhits : o.hits = [] := by simpa [Outcome.changed] using hunchanged
    have hfew := h.few
    rw [Outcome.replacements, hhits] at hfew
    exact Nat.le_zero.1 hfew

/-! ### What a rule looks at -/

namespace Rule

/-- An element is replaced on account of its static class list. -/
theorem replaces_iff {r : Rule} {e : Element} :
    r.replaces e = true ↔
      ∃ tokens, ClassList.tokens? e.attributes = some tokens ∧ r.accepts tokens = true := by
  rw [replaces, Option.any_eq_true]

/-- No rule takes what does not carry the spinner marker. -/
theorem marker_mem_of_accepts {r : Rule} {tokens : List Text} (h : r.accepts tokens = true) :
    Spinner.marker ∈ tokens := by
  simp only [accepts, Bool.and_eq_true] at h
  exact List.elem_iff.1 h.1.1

end Rule

/-- The last rule takes whatever carries the marker. -/
theorem lastRule_accepts {tokens : List Text} (h : Spinner.marker ∈ tokens) :
    lastRule.accepts tokens = true := by
  have hrequired : lastRule.required = [] := rfl
  have hsizes : lastRule.sizes = .any := rfl
  rw [Rule.accepts, hrequired, hsizes, List.elem_iff.2 h]
  rfl

theorem lastRule_mem_standard : lastRule ∈ Catalog.standard.rules := by
  decide +kernel

namespace Catalog

/-- Some element of the text has a static class list that a rule of the catalog takes. -/
def Spots (c : Catalog) (source : Text) : Prop :=
  ∃ e ∈ Element.pattern.occurrences source, ∃ tokens,
    ClassList.tokens? e.attributes = some tokens ∧ ∃ r ∈ c.rules, r.accepts tokens = true

theorem spots_iff {c : Catalog} {source : Text} :
    c.Spots source ↔
      ∃ r ∈ c.rules, ∃ e ∈ Element.pattern.occurrences source, r.replaces e = true := by
  simp only [Spots, Rule.replaces_iff]
  constructor
  · intro h
    obtain ⟨e, he, tokens, htokens, r, hr, haccepts⟩ := h
    exact ⟨r, hr, e, he, tokens, htokens, haccepts⟩
  · intro h
    obtain ⟨r, hr, e, he, tokens, htokens, haccepts⟩ := h
    exact ⟨e, he, tokens, htokens, r, hr, haccepts⟩

/-! ### The run of a catalog -/

theorem text_apply_eq_iff (c : Catalog) (source : Text) :
    (c.apply source).text = source ↔ (c.apply source).changed = false :=
  (traces_run c.rules source).text_eq_iff

/-- A run without hits has left the text alone. -/
theorem changed_eq_false_iff (c : Catalog) (source : Text) :
    (c.apply source).changed = false ↔ c.apply source = ⟨source, []⟩ := by
  constructor
  · intro h
    have htext := (c.text_apply_eq_iff source).2 h
    have hhits : (c.apply source).hits = [] := by simpa [Outcome.changed] using h
    calc c.apply source = ⟨(c.apply source).text, (c.apply source).hits⟩ := rfl
      _ = ⟨source, []⟩ := by rw [htext, hhits]
  · intro h
    rw [h]
    rfl

/-- **A run changes something exactly when a rule takes an element of the source.** -/
theorem changed_eq_true_iff (c : Catalog) (source : Text) :
    (c.apply source).changed = true ↔ c.Spots source := by
  have hnot := (c.changed_eq_false_iff source).trans (c.apply_eq_self_iff source)
  rw [← Bool.not_eq_false, hnot, spots_iff]
  simp

/-- The standard rules take whatever carries the marker. -/
theorem standard_spots_iff (source : Text) :
    standard.Spots source ↔ ∃ e ∈ Element.pattern.occurrences source, ∃ tokens,
      ClassList.tokens? e.attributes = some tokens ∧ Spinner.marker ∈ tokens := by
  constructor
  · intro h
    obtain ⟨e, he, tokens, htokens, r, -, haccepts⟩ := h
    exact ⟨e, he, tokens, htokens, Rule.marker_mem_of_accepts haccepts⟩
  · intro h
    obtain ⟨e, he, tokens, htokens, hmarker⟩ := h
    exact ⟨e, he, tokens, htokens, lastRule, lastRule_mem_standard, lastRule_accepts hmarker⟩

end Catalog

/-- **A text is changed exactly when it holds something to replace.** The three ways to tell are the hits
of the run, whether the update is none (one that fails is not), and the text itself. For the standard rules,
something to replace is an element whose static class list carries the marker. -/
theorem changed_iff_spots (settings : Settings) (source : Text) :
    ((settings.catalog.apply source).changed = true ↔ settings.catalog.Spots source) ∧
      (settings.update source ≠ .ok none ↔ settings.catalog.Spots source) ∧
      ((settings.catalog.apply source).text ≠ source ↔ settings.catalog.Spots source) ∧
      (Catalog.standard.Spots source ↔ ∃ e ∈ Element.pattern.occurrences source, ∃ tokens,
        ClassList.tokens? e.attributes = some tokens ∧ Spinner.marker ∈ tokens) := by
  have hchanged := settings.catalog.changed_eq_true_iff source
  refine ⟨hchanged, ?_, ?_, Catalog.standard_spots_iff source⟩
  · rw [← hchanged, ne_eq, Settings.update_eq_ok_none_iff, Bool.not_eq_false]
  · rw [← hchanged, ne_eq, settings.catalog.text_apply_eq_iff source, Bool.not_eq_false]

end SpinnerMarkup
